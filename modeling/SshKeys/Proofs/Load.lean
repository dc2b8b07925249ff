import SshKeys.Operation
import SshKeys.Proofs.Container
import SshKeys.Proofs.Document
import SshKeys.Proofs.Pem

/-!
# What is loaded

`PrivateKey.load` first finds out what a text is and then reads it.  The facts
below pass the first step: for a text with an armored payload
(`load_of_unwrap`), for one that `Container.decode` accepts (`load_of_decode`),
and for the texts that the library writes as PEM files.
-/

namespace SshKeys

/-! ## Containers -/

theorem nonEmpty_filter (passphrase : Option String) :
    nonEmpty (passphrase.filter (· ≠ "")) = nonEmpty passphrase := by
  cases passphrase with
  | none => rfl
  | some s =>
    by_cases hs : s = ""
    · have hNil : Bytes.ofString "" = [] := Bytes.ofString_eq_nil_iff.2 rfl
      have hSome : nonEmpty (some "") = none := by
        rw [nonEmpty, Option.map_some, Option.filter_some, if_neg (by rw [hNil]; decide)]
      rw [hs, hSome, Option.filter_some, if_neg (by decide)]
      rfl
    · rw [Option.filter_some, if_pos (decide_eq_true hs)]

/-- An empty passphrase counts as none. -/
theorem Container.decode_filter (text : String) (passphrase : Option String) :
    decode text (passphrase.filter (· ≠ "")) = decode text passphrase := by
  simp only [decode, ofHeader, openSection, nonEmpty_filter]

theorem Container.decode_trim (text : String) (passphrase : Option String) :
    decode (Text.trim text) passphrase = decode text passphrase := by
  rw [decode, decode, ContainerHeader.parse_trim]

theorem Armor.infix_of_unwrap {text : String} {payload : Bytes} (h : unwrap text = .ok payload) :
    beginMarker.toList <:+: text.toList := by
  rw [unwrap, unwrapList, body?] at h
  rw [← Text.isSome_cut?_iff]
  cases hCut : Text.cut? beginMarker.toList text.toList with
  | none =>
    rw [hCut] at h
    cases h
  | some p => rfl

theorem Armor.ne_empty_of_unwrap {text : String} {payload : Bytes}
    (h : unwrap text = .ok payload) : text ≠ "" := by
  rintro rfl
  cases h

theorem Text.contains_containerMarker_of_unwrap {text : String} {payload : Bytes}
    (h : Armor.unwrap text = .ok payload) : contains (trim text) containerMarker = true := by
  have hMarker : containerMarker.toList <:+: Armor.beginMarker.toList := by decide
  rw [contains_trim (by decide), contains_iff]
  exact hMarker.trans (Armor.infix_of_unwrap h)

theorem KeyFormat.ofText_of_unwrap {text : String} {payload : Bytes}
    (h : Armor.unwrap text = .ok payload) : ofText text = .openssh := by
  rw [ofText]
  exact if_pos (Text.contains_containerMarker_of_unwrap h)

theorem KeyFormat.ofText_trim (text : String) : ofText (Text.trim text) = ofText text := by
  rw [ofText, ofText, Text.trim_trim]

theorem TextKind.ofText_of_unwrap {text : String} {payload : Bytes}
    (h : Armor.unwrap text = .ok payload) : ofText text = .privateKey := by
  have hContains := Text.contains_containerMarker_of_unwrap h
  rw [ofText, hContains, Bool.or_true, Bool.true_or]
  rfl

theorem Detection.declaredNameOf_append {name : String} (h : name.utf8ByteSize < 2 ^ 32)
    (rest : Bytes) :
    declaredNameOf (ContainerHeader.magic ++ (Field.putText name ++ rest)) =
      if name.isEmpty then .error (.malformedContainer .emptyCipherName) else .ok name := by
  rw [declaredNameOf, if_neg (by rw [List.length_append]; omega), List.take_left, List.drop_left,
    if_neg (not_not.2 rfl), Field.text_eq_ok_iff.2 ⟨rfl, h⟩]

/-- The detector finds the name that a header is read with. -/
theorem Detection.declaredNameOf_of_ofPayload {payload : Bytes} {header : ContainerHeader}
    (h : ContainerHeader.ofPayload payload = .ok header) :
    declaredNameOf payload = .ok header.cipherName := by
  obtain ⟨hWritten, hValid⟩ := ContainerHeader.ofPayload_eq_ok_iff.1 h
  rw [hWritten, ContainerHeader.payload]
  simp only [List.append_assoc]
  rw [declaredNameOf_append hValid.cipherName_lt,
    if_neg (by rw [String.isEmpty_iff]; exact hValid.cipherName_ne)]

namespace PrivateKey

/-- How a text with an armored payload is read, once its cipher is known. -/
theorem load_of_unwrap {text : String} {payload : Bytes} {name : String}
    (hUnwrap : Armor.unwrap text = .ok payload)
    (hName : Detection.declaredNameOf payload = .ok name) (passphrase : Option String) :
    load text passphrase =
      if (Detection.ofDeclaredName name).passphraseRequired ∧
          (passphrase.filter (· ≠ "")).isNone then .error .passphraseRequired
      else
        match CipherProfile.byName? name with
        | some _ => do
          let c ← Container.decode text passphrase
          ofPair c.pair c.comment
        | none =>
          GeneralContainer.privateKey (Text.trim text)
            ((passphrase.filter (· ≠ "")).map Bytes.ofString) := by
  have hTrim : Armor.unwrap (Text.trim text) = .ok payload := by
    rw [Armor.unwrap_trim, hUnwrap]
  have hDeclared : (Detection.ofDeclaredName name).declaredName = some name := by
    rw [Detection.ofDeclaredName]
    split <;> rfl
  rw [load, KeyFormat.ofText_of_unwrap hTrim]
  simp only [Detection.ofText, Detection.ofContainer, Text.trim_trim, hTrim, hName,
    Container.decode_trim, Container.decode_filter, hDeclared, bind, Except.bind, pure, Except.pure,
    Option.bind_some]
  split
  · rfl
  · rfl

/-- With a passphrase, the name of the cipher alone decides who reads the payload. -/
theorem load_of_unwrap_some {text : String} {payload : Bytes} {name : String}
    (hUnwrap : Armor.unwrap text = .ok payload)
    (hName : Detection.declaredNameOf payload = .ok name) {s : String} (hs : s ≠ "") :
    load text (some s) =
      match CipherProfile.byName? name with
      | some _ => do
        let c ← Container.decode text (some s)
        ofPair c.pair c.comment
      | none => GeneralContainer.privateKey (Text.trim text) (some (Bytes.ofString s)) := by
  have hFilter : (some s).filter (· ≠ "") = some s := by
    rw [Option.filter_some, if_pos (decide_eq_true hs)]
  rw [load_of_unwrap hUnwrap hName, hFilter, if_neg fun h => nomatch h.2]
  rfl

/-- A fault in the name of the cipher is reported before anything else. -/
theorem load_of_declaredNameOf_error {text : String} {payload : Bytes} {f : Failure}
    (hUnwrap : Armor.unwrap text = .ok payload)
    (hName : Detection.declaredNameOf payload = .error f) (passphrase : Option String) :
    load text passphrase = .error f := by
  have hTrim : Armor.unwrap (Text.trim text) = .ok payload := by
    rw [Armor.unwrap_trim, hUnwrap]
  rw [load, KeyFormat.ofText_of_unwrap hTrim]
  simp only [Detection.ofText, Detection.ofContainer, Text.trim_trim, hTrim, hName, bind,
    Except.bind]

/-- Converting a text is writing out the key that is loaded from it. -/
theorem convert_of_load {text : String} {passphrase : Option String} {k : PrivateKey}
    (h : load text passphrase = .ok k) {o : ExportOptions} (hValid : o.validate = .ok ()) :
    convert text passphrase o = k.exportWith o := by
  funext source
  rw [convert, StateExcept.bind_of_ok (StateExcept.lift_eq_ok_iff.2 ⟨hValid, rfl⟩),
    StateExcept.bind_of_ok (StateExcept.lift_eq_ok_iff.2 ⟨h, rfl⟩)]

/-- What cannot be loaded is not converted either. -/
theorem convert_of_load_error {text : String} {passphrase : Option String} {f : Failure}
    (h : load text passphrase = .error f) {o : ExportOptions} (hValid : o.validate = .ok ())
    (source : Bytes) : convert text passphrase o source = .error f := by
  rw [convert, StateExcept.bind_of_ok (StateExcept.lift_eq_ok_iff.2 ⟨hValid, rfl⟩), h]
  rfl

theorem load_trim (text : String) (passphrase : Option String) :
    load (Text.trim text) passphrase = load text passphrase := by
  rw [load, load, Text.trim_trim]

/-- Nor is it imported, as an armored text is taken for a private key. -/
theorem importKey_of_load_error {text : String} {payload : Bytes} {passphrase : Option String}
    {f : Failure} (hUnwrap : Armor.unwrap text = .ok payload)
    (h : load text passphrase = .error f) (comment : Option String) :
    importKey text passphrase comment = .error f := by
  have hTrim : Armor.unwrap (Text.trim text) = .ok payload := by
    rw [Armor.unwrap_trim, hUnwrap]
  have hFormat := KeyFormat.ofText_of_unwrap hTrim
  have hKind := TextKind.ofText_of_unwrap hTrim
  have hNe := Armor.ne_empty_of_unwrap hTrim
  have hDetection : Detection.ofText .openssh (Text.trim text) = .error f ∨
      ∃ d, Detection.ofText .openssh (Text.trim text) = .ok d := by
    cases hDetect : Detection.ofText .openssh (Text.trim text) with
    | ok d => exact .inr ⟨d, rfl⟩
    | error e =>
      rw [load, hFormat] at h
      simp only [hDetect, bind, Except.bind] at h
      cases h
      exact .inl rfl
  rw [← load_trim] at h
  rw [importKey]
  simp only [if_neg hNe, hKind, hFormat]
  rcases hDetection with hDetect | ⟨d, hDetect⟩
  · rw [hDetect]
    rfl
  · rw [hDetect, h]
    rfl

/-- **A container that is read is loaded**, without its check number. -/
theorem load_of_decode {text : String} {passphrase : Option String} {c : Container}
    (h : Container.decode text passphrase = .ok c) :
    load text passphrase = ofPair c.pair c.comment := by
  obtain ⟨header, hParse, hRead⟩ := Result.bind_eq_ok_iff.1 h
  obtain ⟨payload, hUnwrap, hPayload⟩ := Result.bind_eq_ok_iff.1 hParse
  obtain ⟨profile, plain, hProfile, -, -, -, hOpens, -⟩ := Container.ofHeader_eq_ok_iff.1 hRead
  have hName := Detection.declaredNameOf_of_ofPayload hPayload
  have hSecret : ¬((Detection.ofDeclaredName header.cipherName).passphraseRequired = true ∧
      (passphrase.filter (· ≠ "")).isNone = true) := by
    rintro ⟨hRequired, hNone⟩
    obtain ⟨kind, rfl, hKind⟩ := CipherProfile.byName?_eq_some_iff.1 hProfile
    rw [Detection.ofDeclaredName] at hRequired
    split at hRequired
    · cases hRequired
    · next hNe =>
      have hEncrypted : kind.profile.isEncrypted = true := by
        cases kind with
        | none => exact absurd hKind hNe
        | aes256Ctr => rfl
        | chacha20Poly1305 => rfl
      rw [Container.Opens, if_pos hEncrypted] at hOpens
      obtain ⟨kdf, s, material, -, rfl, hs, -⟩ := hOpens
      rw [Option.filter_some, if_pos (decide_eq_true hs)] at hNone
      cases hNone
  rw [load_of_unwrap hUnwrap hName, if_neg hSecret, hProfile, h]
  rfl

theorem ofPair_eq_ok {pair : KeyPair} {comment : String} {k : PrivateKey}
    (h : ofPair pair comment = .ok k) : k = ⟨pair, comment, none⟩ := by
  obtain ⟨t, -, h⟩ := Result.bind_eq_ok_iff.1 h
  cases h
  rfl

/-- A key that is loaded from a container under one of the written ciphers is one that
`Container.decode` gives. -/
theorem exists_decode_of_load {text : String} {payload : Bytes} {kind : CipherKind}
    {passphrase : Option String} {k : PrivateKey} (hUnwrap : Armor.unwrap text = .ok payload)
    (hName : Detection.declaredNameOf payload = .ok kind.name)
    (h : load text passphrase = .ok k) :
    ∃ c, Container.decode text passphrase = .ok c ∧ k = ⟨c.pair, c.comment, none⟩ := by
  rw [load_of_unwrap hUnwrap hName, CipherProfile.byName?_name] at h
  split at h
  · cases h
  · obtain ⟨c, hDecode, h⟩ := Result.bind_eq_ok_iff.1 h
    exact ⟨c, hDecode, ofPair_eq_ok h⟩

end PrivateKey

/-! ## PEM files -/

namespace PemFile

/-- The markers a PEM file is told by. -/
def markers : List String :=
  [containerMarker, pkcs8Marker, encryptedPkcs8Marker, legacyEncryptedMarker, legacyCipherMarker,
    rsaMarker, ecMarker]

/-- The text of a document without the line end behind it. -/
def trimmed (name : String) (document : Bytes) : String :=
  String.ofList (Pem.file Pem.lineWidth name document)

theorem trim_encode (name : String) (document : Bytes) :
    Text.trim (Pem.encode name document) = trimmed name document := by
  rw [Pem.encode_eq_file, Pem.trim_file, trimmed]

theorem trim_trimmed (name : String) (document : Bytes) :
    Text.trim (trimmed name document) = trimmed name document := by
  rw [← trim_encode, Text.trim_trim]

theorem contains_trimmed {name pattern : String} {document : Bytes} (h : pattern ∈ markers) :
    Text.contains (trimmed name document) pattern = Pem.marks name pattern := by
  have hMarkers : ∀ p ∈ markers, p.toList.all Armor.isArmorChar = false ∧ '\n' ∉ p.toList := by
    decide
  obtain ⟨hChar, hFeed⟩ := hMarkers pattern h
  exact Pem.contains_file (by decide) hChar hFeed

/-- Whether nothing in the marker lines for a name speaks of a container or of encryption. -/
def isPlain (name : String) : Bool :=
  [containerMarker, encryptedPkcs8Marker, legacyEncryptedMarker, legacyCipherMarker].all
    fun p => !Pem.marks name p

theorem contains_of_isPlain {name : String} (h : isPlain name = true) (document : Bytes) :
    Text.contains (trimmed name document) containerMarker = false ∧
      Text.contains (trimmed name document) encryptedPkcs8Marker = false ∧
      Text.contains (trimmed name document) legacyEncryptedMarker = false ∧
      Text.contains (trimmed name document) legacyCipherMarker = false := by
  simp only [isPlain, List.all_cons, List.all_nil, Bool.and_true, Bool.and_eq_true,
    Bool.not_eq_true'] at h
  rw [contains_trimmed (by simp [markers]), contains_trimmed (by simp [markers]),
    contains_trimmed (by simp [markers]), contains_trimmed (by simp [markers])]
  exact h

/-- The format a plain document is taken for. -/
def formatOf (name : String) : KeyFormat :=
  if Pem.marks name pkcs8Marker then .pkcs8 else .pem

theorem ofText_trimmed {name : String} (h : isPlain name = true) (document : Bytes) :
    KeyFormat.ofText (trimmed name document) = formatOf name := by
  obtain ⟨hContainer, hEncrypted, -, -⟩ := contains_of_isPlain h document
  rw [KeyFormat.ofText]
  simp only [trim_trimmed, hContainer, hEncrypted, Bool.or_false]
  rw [contains_trimmed (by simp [markers]), formatOf]
  rfl

theorem formatOf_ne (name : String) : formatOf name ≠ .openssh := by
  rw [formatOf]
  split <;> decide

/-- How a text without a container is read. -/
theorem load_of_format {text : String} {format : KeyFormat}
    (hFormat : KeyFormat.ofText (Text.trim text) = format) (hNe : format ≠ .openssh)
    (passphrase : Option String) :
    PrivateKey.load text passphrase =
      if (Detection.ofPem (Text.trim text)).passphraseRequired ∧
          (passphrase.filter (· ≠ "")).isNone then .error .passphraseRequired
      else (do
        PrivateKey.ofPair
          (← keyPair format (Text.trim text) (passphrase.filter (· ≠ ""))) "") := by
  rw [PrivateKey.load, hFormat]
  cases format with
  | openssh => exact absurd rfl hNe
  | pkcs8 =>
    simp only [Detection.ofText, Text.trim_trim, privateKey, bind, Except.bind]
    split
    · rfl
    · cases keyPair .pkcs8 (Text.trim text) (passphrase.filter (· ≠ "")) <;> rfl
  | pem =>
    simp only [Detection.ofText, Text.trim_trim, privateKey, bind, Except.bind]
    split
    · rfl
    · cases keyPair .pem (Text.trim text) (passphrase.filter (· ≠ "")) <;> rfl

/-- How a file that shows no sign of encryption is read. -/
theorem load_of_unencrypted {text : String} {format : KeyFormat}
    (hFormat : KeyFormat.ofText (Text.trim text) = format) (hNe : format ≠ .openssh)
    (hPlain : Detection.ofPem (Text.trim text) = Detection.unencrypted)
    (passphrase : Option String) :
    PrivateKey.load text passphrase = (do
      PrivateKey.ofPair (← keyPair format (Text.trim text) (passphrase.filter (· ≠ ""))) "") := by
  rw [load_of_format hFormat hNe, hPlain]
  exact if_neg fun hBoth => nomatch hBoth.1

theorem ofText_encode {name : String} (h : isPlain name = true) (document : Bytes) :
    KeyFormat.ofText (Pem.encode name document) = formatOf name := by
  rw [← KeyFormat.ofText_trim, trim_encode, ofText_trimmed h]

/-- A plain document shows no sign of encryption. -/
theorem ofPem_trimmed {name : String} (h : isPlain name = true) (document : Bytes) :
    Detection.ofPem (trimmed name document) = Detection.unencrypted := by
  obtain ⟨-, hEncrypted, hLegacy, hCipher⟩ := contains_of_isPlain h document
  rw [Detection.ofPem, if_neg]
  simp only [List.any_cons, List.any_nil, hEncrypted, hLegacy, hCipher, Bool.or_false,
    Bool.false_eq_true, not_false_eq_true]

theorem load_encode {name : String} (h : isPlain name = true) (document : Bytes)
    (passphrase : Option String) :
    PrivateKey.load (Pem.encode name document) passphrase = (do
      PrivateKey.ofPair
        (← keyPair (formatOf name) (trimmed name document) (passphrase.filter (· ≠ ""))) "") := by
  have hFormat : KeyFormat.ofText (Text.trim (Pem.encode name document)) = formatOf name := by
    rw [KeyFormat.ofText_trim, ofText_encode h]
  rw [load_of_unencrypted hFormat (formatOf_ne name) (by rw [trim_encode, ofPem_trimmed h]),
    trim_encode]

/-! ## What is read from a file -/

section

variable {text : String}

theorem exists_of_traditional {passphrase : Option String} {pair : KeyPair}
    (h : traditional text passphrase = .ok pair) :
    Text.contains text legacyEncryptedMarker = false ∧
    ((∃ document m, Pem.decode? Pkcs1.label text = some document ∧
        Pkcs1.read? document = some m ∧ KeyPair.ofRsa m = .ok pair) ∨
      ∃ document s, Pem.decode? Sec1.label text = some document ∧
        Sec1.read? document = some s ∧ KeyPair.ofScalarOn? s.scalarOn? = some pair) := by
  rw [traditional.eq_def] at h
  split at h
  · split at h <;> cases h
  · next hLegacy =>
    refine ⟨Bool.eq_false_iff.2 hLegacy, ?_⟩
    split at h
    · split at h
      · cases h
      · next m hRead =>
        obtain ⟨document, hDecode, hRead⟩ :=
          Option.bind_eq_some_iff.1 (Pem.document_eq_ok_iff.1 hRead)
        exact .inl ⟨document, m, hDecode, hRead, h⟩
    · split at h
      · simp only at h
        split at h
        · cases h
        · next own hOwn =>
          cases h
          obtain ⟨s, hRead, hPair⟩ := Option.bind_eq_some_iff.1 hOwn
          obtain ⟨document, hDecode, hRead⟩ := Option.bind_eq_some_iff.1 hRead
          exact .inr ⟨document, s, hDecode, hRead, hPair⟩
      · split at h <;> cases h

theorem exists_of_pkcs8 {k : Pkcs8} (h : pkcs8 text none = .ok k) :
    Text.contains text encryptedPkcs8Marker = false ∧
    ∃ document, Pem.decode? Pkcs8.label text = some document ∧ Pkcs8.read? document = some k := by
  rw [pkcs8.eq_def] at h
  split at h
  · cases h
  · next hEncrypted =>
    refine ⟨Bool.eq_false_iff.2 hEncrypted, ?_⟩
    split at h
    · cases h
    · next hRead =>
      cases h
      exact Option.bind_eq_some_iff.1 (Pem.document_eq_ok_iff.1 hRead)

end

/-! ## The documents that are written -/

theorem isPlain_pkcs8 : isPlain Pkcs8.label = true := by
  decide +kernel

theorem isPlain_pkcs1 : isPlain Pkcs1.label = true := by
  decide +kernel

theorem isPlain_sec1 : isPlain Sec1.label = true := by
  decide +kernel

theorem formatOf_pkcs8 : formatOf Pkcs8.label = .pkcs8 := by
  decide +kernel

theorem formatOf_pkcs1 : formatOf Pkcs1.label = .pem := by
  decide +kernel

theorem formatOf_sec1 : formatOf Sec1.label = .pem := by
  decide +kernel

/-- What a reader finds in a document it finds in the file of it. -/
theorem decode?_bind {α : Type} {read? : Bytes → Option α} {name : String} {document : Bytes}
    {a : α} (hName : Pem.isName name = true) (hNone : read? [] = none)
    (hRead : read? document = some a) :
    Pem.decode? name (trimmed name document) >>= read? = some a := by
  have hNe : document ≠ [] := by
    rintro rfl
    rw [hNone] at hRead
    cases hRead
  rw [trimmed, Pem.decode?_file hName hNe]
  exact hRead

theorem document_trimmed {α : Type} {read? : Bytes → Option α} {name : String} {document : Bytes}
    {a : α} (hName : Pem.isName name = true) (hNone : read? [] = none)
    (hRead : read? document = some a) : Pem.document name read? (trimmed name document) = .ok a :=
  Pem.document_eq_ok_iff.2 (decode?_bind hName hNone hRead)

theorem keyPair_pkcs8 {document : Bytes} {k : Pkcs8} {pair : KeyPair}
    (hRead : Pkcs8.read? document = some k) (hPair : KeyPair.ofPkcs8 k = .ok pair)
    (passphrase : Option String) :
    keyPair .pkcs8 (trimmed Pkcs8.label document) passphrase = .ok pair := by
  have hNone : Pkcs8.read? [] = none := rfl
  have hEncrypted := (contains_of_isPlain isPlain_pkcs8 document).2.1
  have hDocument : pkcs8 (trimmed Pkcs8.label document) passphrase = .ok k := by
    rw [pkcs8.eq_def, if_neg (by rw [hEncrypted]; decide),
      document_trimmed (by decide) hNone hRead]
  rw [keyPair, hDocument]
  exact hPair

theorem load_pkcs8 {document : Bytes} {k : Pkcs8} {pair : KeyPair}
    (hRead : Pkcs8.read? document = some k) (hPair : KeyPair.ofPkcs8 k = .ok pair)
    (passphrase : Option String) :
    PrivateKey.load (Pem.encode Pkcs8.label document) passphrase = PrivateKey.ofPair pair "" := by
  rw [load_encode isPlain_pkcs8, formatOf_pkcs8, keyPair_pkcs8 hRead hPair]
  rfl

theorem load_pkcs1 {document : Bytes} {k : Rsa.Numbers} (hRead : Pkcs1.read? document = some k)
    (passphrase : Option String) :
    PrivateKey.load (Pem.encode Pkcs1.label document) passphrase = (do
      PrivateKey.ofPair (← KeyPair.ofRsa k) "") := by
  have hNone : Pkcs1.read? [] = none := rfl
  have hLegacy := (contains_of_isPlain isPlain_pkcs1 document).2.2.1
  have hRsa : Text.contains (trimmed Pkcs1.label document) rsaMarker = true := by
    rw [contains_trimmed (by simp [markers])]
    decide +kernel
  have hKey (secret : Option String) :
      keyPair .pem (trimmed Pkcs1.label document) secret = KeyPair.ofRsa k := by
    rw [keyPair, traditional.eq_def, if_neg (by rw [hLegacy]; decide), if_pos hRsa,
      document_trimmed (by decide) hNone hRead]
  rw [load_encode isPlain_pkcs1, formatOf_pkcs1, hKey]

/-- The texts that are read as SEC 1. -/
structure IsSec1 (text : String) : Prop where
  legacy : Text.contains text legacyEncryptedMarker = false
  rsa : Text.contains text rsaMarker = false
  ec : Text.contains text ecMarker = true

theorem isSec1_trimmed (document : Bytes) : IsSec1 (trimmed Sec1.label document) := by
  refine ⟨(contains_of_isPlain isPlain_sec1 document).2.2.1, ?_, ?_⟩
  · rw [contains_trimmed (by simp [markers])]
    decide +kernel
  · rw [contains_trimmed (by simp [markers])]
    decide +kernel

theorem keyPair_sec1 {document : Bytes} {s : Sec1} {pair : KeyPair}
    (hRead : Sec1.read? document = some s) (hPair : KeyPair.ofScalarOn? s.scalarOn? = some pair)
    (passphrase : Option String) :
    keyPair .pem (trimmed Sec1.label document) passphrase = .ok pair := by
  have hNone : Sec1.read? [] = none := rfl
  have hFile := isSec1_trimmed document
  rw [keyPair, traditional.eq_def, if_neg (by rw [hFile.legacy]; decide),
    if_neg (by rw [hFile.rsa]; decide), if_pos hFile.ec, decode?_bind (by decide) hNone hRead]
  simp only [Option.bind_eq_bind, Option.bind_some, hPair]

theorem load_sec1 {document : Bytes} {s : Sec1} {pair : KeyPair}
    (hRead : Sec1.read? document = some s) (hPair : KeyPair.ofScalarOn? s.scalarOn? = some pair)
    (passphrase : Option String) :
    PrivateKey.load (Pem.encode Sec1.label document) passphrase = PrivateKey.ofPair pair "" := by
  rw [load_encode isPlain_sec1, formatOf_sec1, keyPair_sec1 hRead hPair]
  rfl

end PemFile

end SshKeys
