import SshKeys.Proofs.Faults
import SshKeys.Proofs.Load

/-!
# Faults of encrypted documents

An encrypted document is an envelope with a document inside.  What is wrong with the
envelope shows before the passphrase is applied, and what goes wrong afterwards
counts as a wrong passphrase: a wrong one may come upon bytes that pass for padding,
and fail only when the document is read.  If the two were mixed, a failure would tell
something about the plaintext, and a user who mistyped would not be asked again.

The wording of a fault of the envelope is that of the parsers, and may come from all
that they were given.  So it is arbitrary here: a failure carries the step that came
to nothing and what it was given, and neither comes from the passphrase.

* `PemFile.outcome`: the three ways a document with a passphrase can go.
* `PemFile.faults_separate`: **the envelope is blamed under every passphrase alike, and
  a passphrase that does not open the envelope is told apart from a bad envelope.**
* `Envelope.exists_opened`: every document can be put into an envelope that a given
  passphrase opens.

`PemFile.seedFile` is a file that one passphrase opens and another does not.
-/

namespace SshKeys

variable {α : Type} {text m : String} {e : Envelope} {wording : DocumentFault → String}

namespace Envelope

/-- The envelope of a text. -/
def ofText (text : String) : Except DocumentFault Envelope :=
  Pem.document label read? text

/-- The document in an envelope. -/
def open? (e : Envelope) (passphrase : Bytes) : Option Pkcs8 :=
  e.decrypt? passphrase >>= Pkcs8.read?

/-- An envelope stays closed when decryption fails or what it gives is no document. -/
theorem open?_eq_none_iff {passphrase : Bytes} : e.open? passphrase = none ↔
    e.decrypt? passphrase = none ∨
      ∃ inner, e.decrypt? passphrase = some inner ∧ Pkcs8.read? inner = none := by
  rw [open?]
  cases e.decrypt? passphrase with
  | none => exact iff_of_true rfl (.inl rfl)
  | some inner =>
    constructor
    · exact fun h => .inr ⟨inner, rfl, h⟩
    · rintro (h | ⟨inner', h, hRead⟩)
      · cases h
      · cases h
        exact hRead

end Envelope

namespace PemFile

/-- A failure that blames the document as such, by the beginning of its message. -/
def BlamesDocument (wording : DocumentFault → String) (r : Except Failure α) (m : String) : Prop :=
  ∃ fault, r = .error (.invalidInput fault) ∧ fault.messageWith wording = m ∧
    Text.startsWith m "PKCS#8: " = true

theorem blamesDocument_pkcs8 (f : DocumentFault) :
    BlamesDocument wording (.error (.invalidInput (.pkcs8 f)) : Except Failure α)
      ("PKCS#8: " ++ wording f) := by
  refine ⟨.pkcs8 f, rfl, rfl, ?_⟩
  rw [Text.startsWith, String.toList_append, List.isPrefixOf_iff_prefix]
  exact List.prefix_append ..

theorem not_blamesDocument_decryptionFailed :
    ¬BlamesDocument wording (.error .decryptionFailed : Except Failure α) m := by
  rintro ⟨fault, h, -, -⟩
  cases h

theorem not_blamesDocument_of_opened {r : Except Failure α} (h : FailsOnly Failure.OfDocument r) :
    ¬BlamesDocument wording r m := by
  rintro ⟨fault, rfl, rfl, hStart⟩
  rcases h _ rfl with hRsa | hKind
  · cases hRsa
    have hOwn : InputFault.messageWith wording (.rsa .crypto) = InputFault.message (.rsa .crypto) :=
      rfl
    rw [hOwn] at hStart
    exact absurd hStart (by decide)
  · cases hKind

theorem keyPair_of_fault (hMarker : Text.contains text encryptedPkcs8Marker = true)
    {fault : DocumentFault} (hText : Envelope.ofText text = .error fault) (passphrase : String) :
    keyPair .pkcs8 text (some passphrase) = .error (.invalidInput (.pkcs8 fault)) := by
  rw [Envelope.ofText] at hText
  rw [keyPair, pkcs8, if_pos hMarker, decrypted, hText]
  rfl

theorem keyPair_of_closed (hMarker : Text.contains text encryptedPkcs8Marker = true)
    (hText : Envelope.ofText text = .ok e) {passphrase : String}
    (hClosed : e.open? (Bytes.ofString passphrase) = none) :
    keyPair .pkcs8 text (some passphrase) = .error .decryptionFailed := by
  rw [Envelope.ofText] at hText
  rw [Envelope.open?] at hClosed
  rw [keyPair, pkcs8, if_pos hMarker, decrypted, hText]
  simp only [hClosed]
  rfl

theorem keyPair_of_open (hMarker : Text.contains text encryptedPkcs8Marker = true)
    (hText : Envelope.ofText text = .ok e) {passphrase : String} {k : Pkcs8}
    (hOpen : e.open? (Bytes.ofString passphrase) = some k) :
    keyPair .pkcs8 text (some passphrase) = KeyPair.ofPkcs8 k := by
  rw [Envelope.ofText] at hText
  rw [Envelope.open?] at hOpen
  rw [keyPair, pkcs8, if_pos hMarker, decrypted, hText]
  simp only [hOpen]
  rfl

/-- **The three ways an encrypted document with a passphrase can go.** -/
theorem outcome (hMarker : Text.contains text encryptedPkcs8Marker = true) (passphrase : String) :
    (∃ f, Envelope.ofText text = .error f ∧
      privateKey .pkcs8 text (some passphrase) = .error (.invalidInput (.pkcs8 f))) ∨
    (∃ e, Envelope.ofText text = .ok e ∧ e.open? (Bytes.ofString passphrase) = none ∧
      privateKey .pkcs8 text (some passphrase) = .error .decryptionFailed) ∨
    ∃ e k, Envelope.ofText text = .ok e ∧ e.open? (Bytes.ofString passphrase) = some k ∧
      privateKey .pkcs8 text (some passphrase) =
        KeyPair.ofPkcs8 k >>= fun pair => pure ⟨pair, "", none⟩ := by
  rw [privateKey]
  cases hText : Envelope.ofText text with
  | error f =>
    rw [keyPair_of_fault hMarker hText]
    exact .inl ⟨f, rfl, rfl⟩
  | ok e =>
    cases hOpen : e.open? (Bytes.ofString passphrase) with
    | none =>
      rw [keyPair_of_closed hMarker hText hOpen]
      exact .inr (.inl ⟨e, rfl, hOpen, rfl⟩)
    | some k =>
      rw [keyPair_of_open hMarker hText hOpen]
      exact .inr (.inr ⟨e, k, rfl, hOpen, rfl⟩)

/-- What is opened fails neither for the envelope nor for the passphrase. -/
theorem failsOnly_opened (k : Pkcs8) : FailsOnly Failure.OfDocument
    (KeyPair.ofPkcs8 k >>= fun pair => pure (⟨pair, "", none⟩ : PrivateKey)) :=
  (KeyPair.failsOnly_document k).bind fun _ => failsOnly_ok _

/-- The document is blamed exactly if there is no envelope, and for what is wrong with it. -/
theorem blamesDocument_iff (hMarker : Text.contains text encryptedPkcs8Marker = true)
    (passphrase : String) :
    BlamesDocument wording (privateKey .pkcs8 text (some passphrase)) m ↔
      ∃ f, Envelope.ofText text = .error f ∧ "PKCS#8: " ++ wording f = m := by
  rcases outcome hMarker passphrase with
    ⟨f, hText, hKey⟩ | ⟨e, hText, -, hKey⟩ | ⟨e, k, hText, -, hKey⟩
  · rw [hKey, hText]
    constructor
    · rintro ⟨fault, hFault, hm, -⟩
      cases hFault
      exact ⟨f, rfl, hm⟩
    · rintro ⟨f', hf, rfl⟩
      cases hf
      exact blamesDocument_pkcs8 f
  · rw [hKey, hText]
    exact iff_of_false not_blamesDocument_decryptionFailed fun ⟨_, h, _⟩ => nomatch h
  · rw [hKey, hText]
    exact iff_of_false (not_blamesDocument_of_opened (failsOnly_opened k))
      fun ⟨_, h, _⟩ => nomatch h

/-- The passphrase is blamed exactly if it does not open the envelope. -/
theorem decryptionFailed_iff (hMarker : Text.contains text encryptedPkcs8Marker = true)
    (hText : Envelope.ofText text = .ok e) (passphrase : String) :
    privateKey .pkcs8 text (some passphrase) = .error .decryptionFailed ↔
      e.open? (Bytes.ofString passphrase) = none := by
  rcases outcome hMarker passphrase with
    ⟨f, hText', -⟩ | ⟨e', hText', hOpen, hKey⟩ | ⟨e', k, hText', hOpen, hKey⟩
  · cases hText.symm.trans hText'
  · cases hText.symm.trans hText'
    exact iff_of_true hKey hOpen
  · cases hText.symm.trans hText'
    refine iff_of_false ?_ fun hNone => ?_
    · rw [hKey]
      refine (failsOnly_opened k).ne ?_
      rintro (h | h) <;> cases h
    · rw [hOpen] at hNone
      cases hNone

/-- **Faults of the envelope and of the passphrase do not mix.**  A failure that blames the
document comes under every passphrase, with the same message, however faults are worded; where
there is an envelope, every passphrase under which decryption fails or comes upon no document is
blamed itself. -/
theorem faults_separate (hMarker : Text.contains text encryptedPkcs8Marker = true) :
    (∀ wording p₁ p₂ m, BlamesDocument wording (privateKey .pkcs8 text (some p₁)) m ↔
      BlamesDocument wording (privateKey .pkcs8 text (some p₂)) m) ∧
    ∀ e p, Envelope.ofText text = .ok e →
      (privateKey .pkcs8 text (some p) = .error .decryptionFailed ↔
        e.decrypt? (Bytes.ofString p) = none ∨
          ∃ inner, e.decrypt? (Bytes.ofString p) = some inner ∧ Pkcs8.read? inner = none) := by
  constructor
  · intro wording p₁ p₂ m
    rw [blamesDocument_iff hMarker, blamesDocument_iff hMarker]
  · intro e p hText
    rw [decryptionFailed_iff hMarker hText, Envelope.open?_eq_none_iff]

end PemFile

/-! ## Envelopes that are opened -/

/-- Each block is added to the one before it, so the last may be any: the others follow from it. -/
theorem Cbc.exists_decrypt {f : Bytes → Bytes} (hf : ∀ c, (f c).length = 16) {n : Nat}
    {plain : Bytes} (h : plain.length = 16 * n) :
    ∃ iv data, iv.length = 16 ∧ data.length = 16 * n ∧ decrypt f iv data = plain := by
  induction n generalizing plain with
  | zero =>
    rw [List.eq_nil_of_length_eq_zero h]
    exact ⟨Bytes.zeros 16, [], rfl, rfl, by rw [decrypt, chunks_nil, decryptBlocks]⟩
  | succ n ih =>
    have hRest : (plain.drop 16).length = 16 * n := by
      rw [List.length_drop]
      omega
    obtain ⟨last, data, hLast, hData, hPlain⟩ := ih hRest
    have hFirst : (plain.take 16).length = 16 := List.length_take_of_le (by omega)
    have hChunks : chunks 16 (last ++ data) = last :: chunks 16 data := by
      rw [chunks, if_neg (by rw [List.length_append]; omega), List.take_left' hLast,
        List.drop_left' hLast]
    have hCancel : Bytes.xor (f last) (Bytes.xor (plain.take 16) (f last)) = plain.take 16 := by
      rw [Bytes.xor_comm]
      exact Bytes.xor_xor_cancel (by rw [hFirst, hf])
    refine ⟨Bytes.xor (plain.take 16) (f last), last ++ data, ?_, ?_, ?_⟩
    · rw [Bytes.length_xor, hFirst, hf, Nat.min_self]
    · rw [List.length_append, hLast, hData]
      omega
    · rw [decrypt] at hPlain
      rw [decrypt, hChunks, decryptBlocks, hCancel, hPlain, List.take_append_drop]

theorem Cbc.unpad?_append (document : Bytes) {n : Nat} (hOne : 1 ≤ n) (hBlock : n ≤ 16) :
    unpad? (document ++ List.replicate n (UInt8.ofNat n)) = some document := by
  have hByte : (UInt8.ofNat n).toNat = n := by
    rw [UInt8.toNat_ofNat']
    omega
  have hLast : (document ++ List.replicate n (UInt8.ofNat n)).getLast? = some (UInt8.ofNat n) := by
    rw [List.getLast?_append, List.getLast?_replicate, if_neg (by omega)]
    rfl
  have hKeep : (document ++ List.replicate n (UInt8.ofNat n)).length - n = document.length := by
    rw [List.length_append, List.length_replicate, Nat.add_sub_cancel]
  have hAll : (List.replicate n (UInt8.ofNat n)).all (· == UInt8.ofNat n) = true := by
    rw [List.all_replicate]
    simp
  rw [unpad?, hLast]
  simp only [hByte, hKeep, List.drop_left, List.take_left]
  exact if_pos ⟨hOne, hBlock, by rw [List.length_append, List.length_replicate]; omega, hAll⟩

namespace Envelope

/-- An envelope whose key of sixteen bytes is derived in one round. -/
def sealedWith (iv ciphertext : Bytes) : Envelope :=
  ⟨.pbes2 (.pbkdf2 (Bytes.ofString "salt") 1 none (.sha2 .bits256)) 16 iv, ciphertext⟩

/-- The parameters of the derivation. -/
def sealedKdf : Bytes :=
  [Der.putOctets (Bytes.ofString "salt"), Der.putNat 1,
    Der.putSequence [Der.putObjectId (ObjectId.hmac 9), Der.null]].flatten

def sealedParameters (iv : Bytes) : Bytes :=
  Der.putSequence [Der.putObjectId ObjectId.pbkdf2, Der.put Der.sequenceTag sealedKdf] ++
    Der.putSequence [Der.putObjectId (ObjectId.aesCbc 2), Der.put Der.octetStringTag iv]

def sealedDocument (iv ciphertext : Bytes) : Bytes :=
  Der.putSequence [Der.putSequence [Der.putObjectId ObjectId.pbes2,
    Der.put Der.sequenceTag (sealedParameters iv)], Der.putOctets ciphertext]

theorem length_sealedParameters {iv : Bytes} (hIv : iv.length = 16) :
    (sealedParameters iv).length ≤ 100 := by
  have hKdf : (Der.putSequence [Der.putObjectId ObjectId.pbkdf2,
      Der.put Der.sequenceTag sealedKdf]).length ≤ 50 := by decide +kernel
  have hName : (Der.putObjectId (ObjectId.aesCbc 2)).length = 11 := by decide
  have hOwn : (Der.put Der.octetStringTag iv).length = 18 := by
    rw [Der.put, hIv, List.length_append, List.length_cons, hIv]
    rfl
  have hFlatten : [Der.putObjectId (ObjectId.aesCbc 2),
      Der.put Der.octetStringTag iv].flatten.length = 29 := by
    simp only [List.flatten_cons, List.flatten_nil, List.append_nil, List.length_append, hOwn,
      hName]
  have hCipher := Der.length_put_le Der.sequenceTag (hFlatten.trans_le (by decide))
  rw [sealedParameters, List.length_append]
  rw [hFlatten] at hCipher
  exact (Nat.add_le_add hKdf hCipher).trans (by decide)

theorem scheme?_sealed {iv : Bytes} (hIv : iv.length = 16) :
    scheme? ⟨ObjectId.pbes2, some (Der.sequenceTag, sealedParameters iv)⟩ =
      some (.pbes2 (.pbkdf2 (Bytes.ofString "salt") 1 none (.sha2 .bits256)) 16 iv) := by
  have hKdfName : Der.isObjectId ObjectId.pbkdf2 = true := by decide
  have hCipherName : Der.isObjectId (ObjectId.aesCbc 2) = true := by decide
  have hKdf : EnvelopeKdf.ofId? ⟨ObjectId.pbkdf2, some (Der.sequenceTag, sealedKdf)⟩ =
      some (.pbkdf2 (Bytes.ofString "salt") 1 none (.sha2 .bits256)) := by decide +kernel
  have hLength : ciphers.lookup (ObjectId.aesCbc 2) = some 16 := by decide
  have hKdfLength : sealedKdf.length ≤ 100 := by decide +kernel
  have hIvLength : iv.length ≤ 100 := by omega
  have hSequence : Der.isTag Der.sequenceTag = true := by decide
  have hOctets : Der.isTag Der.octetStringTag = true := by decide
  have hFirst := Der.yields_algorithmId hKdfName hSequence hKdfLength
    (Der.putSequence [Der.putObjectId (ObjectId.aesCbc 2), Der.put Der.octetStringTag iv])
  have hSecond := Der.yields_algorithmId hCipherName hOctets hIvLength []
  rw [List.append_nil] at hSecond
  show Der.whole pbes2Reader (sealedParameters iv) = _
  rw [Der.whole, sealedParameters, pbes2Reader, StateOption.bind_of_some hFirst,
    StateOption.bind_of_some hSecond,
    StateOption.bind_of_some (StateOption.lift_of_some hKdf),
    StateOption.bind_of_some (StateOption.lift_of_some rfl)]
  simp only
  rw [StateOption.bind_of_some (StateOption.guard_of ⟨trivial, hIv⟩),
    StateOption.bind_of_some (StateOption.lift_of_some hLength)]
  rfl

theorem read?_sealedDocument {iv ciphertext : Bytes} (hIv : iv.length = 16)
    (hCiphertext : ciphertext.length ≤ 2 ^ 20) :
    read? (sealedDocument iv ciphertext) = some (sealedWith iv ciphertext) := by
  have hLength := length_sealedParameters hIv
  have hScheme := scheme?_sealed hIv
  have hMax : Der.maxLength = 268435455 := rfl
  have hName : Der.isObjectId ObjectId.pbes2 = true := by decide
  have hParameters := Der.length_put_le Der.sequenceTag (c := sealedParameters iv) (by omega)
  have hNamed := Der.length_putObjectId_le hName
  have hAlgorithm := Der.length_put_le Der.sequenceTag (c := [Der.putObjectId ObjectId.pbes2,
    Der.put Der.sequenceTag (sealedParameters iv)].flatten)
    (by simp only [List.flatten_cons, List.flatten_nil, List.length_append, List.length_nil]; omega)
  have hOctets := Der.length_put_le Der.octetStringTag (c := ciphertext) (by omega)
  refine (Der.yields_sequence ?_ ?_).whole
  · simp only [List.flatten_cons, List.flatten_nil, List.length_append, List.length_nil,
      Der.putOctets, Der.putSequence] at *
    omega
  · have hTag : Der.isTag Der.sequenceTag = true := by decide
    have hOwn := Der.yields_octets (c := ciphertext) (by omega) []
    simp only [List.flatten_cons, List.flatten_nil] at hOwn ⊢
    rw [Der.whole, StateOption.bind_of_some (Der.yields_algorithmId hName hTag hLength _),
      StateOption.bind_of_some (StateOption.lift_of_some hScheme), StateOption.bind_of_some hOwn]
    rfl

/-- **Every document can be put into an envelope that the passphrase opens.** -/
theorem exists_opened {document : Bytes} {k : Pkcs8} (hRead : Pkcs8.read? document = some k)
    (hLength : document.length ≤ 2 ^ 19) (passphrase : Bytes) :
    ∃ iv ciphertext, read? (sealedDocument iv ciphertext) = some (sealedWith iv ciphertext) ∧
      (sealedWith iv ciphertext).open? passphrase = some k := by
  let n := 16 - document.length % 16
  have hPadded : (document ++ List.replicate n (UInt8.ofNat n)).length =
      16 * (document.length / 16 + 1) := by
    rw [List.length_append, List.length_replicate]
    omega
  let key := Pbkdf2.derive .bits256 passphrase (Bytes.ofString "salt") 1 16
  obtain ⟨iv, ciphertext, hIv, hCiphertext, hPlain⟩ :=
    Cbc.exists_decrypt (f := Aes.decrypt (Aes.schedule key)) (fun _ => rfl) hPadded
  refine ⟨iv, ciphertext, read?_sealedDocument hIv (by omega), ?_⟩
  have hWhole : ciphertext.length % 16 = 0 := by omega
  have hOpen : (sealedWith iv ciphertext).decrypt? passphrase = some document := by
    have hUnpad := Cbc.unpad?_append document (n := n) (by omega) (by omega)
    rw [← hPlain] at hUnpad
    show (do
      guard (ciphertext.length % 16 = 0)
      Cbc.unpad? (Cbc.decrypt (Aes.decrypt (Aes.schedule key)) iv ciphertext)) = some document
    rw [hWhole]
    exact hUnpad
  rw [open?, hOpen]
  exact hRead

end Envelope

theorem Pkcs8.length_ofSeed_le {seed : Bytes} (h : seed.length = 32) :
    (ofSeed seed).length ≤ 106 := by
  have hHead : (Der.putNat 1).length = 3 := by decide +kernel
  have hAlgorithm : (Der.putSequence [Der.putObjectId ObjectId.ed25519]).length = 7 := by decide
  have hOctets : (Der.putOctets (Der.putOctets seed)).length = 36 := by
    simp only [Der.putOctets, Der.put, List.length_append, List.length_cons, h]
    decide
  have hBits : (Der.bits (Ed25519.publicKey seed)).length = 33 := by
    rw [Der.bits, List.length_cons, Ed25519.length_publicKey]
  have hPoint : (Der.put (Der.implicitTag 1) (Der.bits (Ed25519.publicKey seed))).length ≤ 39 := by
    simpa only [hBits] using Der.length_put_le (Der.implicitTag 1) (hBits.trans_le (by decide))
  have hAll : [Der.putNat 1, Der.putSequence [Der.putObjectId ObjectId.ed25519],
      Der.putOctets (Der.putOctets seed),
      Der.put (Der.implicitTag 1) (Der.bits (Ed25519.publicKey seed))].flatten.length ≤ 100 := by
    simp only [List.flatten_cons, List.flatten_nil, List.length_append, List.length_nil]
    omega
  have hPut := Der.length_put_le Der.sequenceTag (hAll.trans (by decide))
  exact hPut.trans (Nat.add_le_add_right hAll 6)

namespace PemFile

/-- The file of an envelope. -/
theorem envelope_trimmed {document : Bytes} (hRead : Envelope.read? document = some e) :
    Text.contains (trimmed Envelope.label document) encryptedPkcs8Marker = true ∧
      Envelope.ofText (trimmed Envelope.label document) = .ok e := by
  have hName : Pem.isName Envelope.label = true := by decide +kernel
  constructor
  · rw [contains_trimmed (by simp [markers])]
    decide +kernel
  · exact document_trimmed hName rfl hRead

/-- The keys of seeds in files that a passphrase opens. -/
theorem exists_privateKey_ofSeed {seed : Bytes} (hSeed : seed.length = 32) (passphrase : String) :
    ∃ text, Text.contains text encryptedPkcs8Marker = true ∧
      (∃ e, Envelope.ofText text = .ok e) ∧
      privateKey .pkcs8 text (some passphrase) = .ok ⟨.ofSeed seed, "", none⟩ := by
  obtain ⟨k, hRead, hPair⟩ := KeyPair.ofPkcs8_ofSeed hSeed
  have hLength := (Pkcs8.length_ofSeed_le hSeed).trans (by decide : 106 ≤ 2 ^ 19)
  obtain ⟨iv, ciphertext, hEnvelope, hOpen⟩ :=
    Envelope.exists_opened hRead hLength (Bytes.ofString passphrase)
  obtain ⟨hMarker, hText⟩ := envelope_trimmed hEnvelope
  refine ⟨_, hMarker, ⟨_, hText⟩, ?_⟩
  rw [privateKey, keyPair_of_open hMarker hText hOpen, hPair]
  rfl

/-! ### Under a passphrase and under another -/

/-- The key of a seed of zeros, without its public key. -/
def seedKey : Pkcs8 :=
  ⟨⟨ObjectId.ed25519, none⟩, 0x04 :: 0x20 :: Bytes.zeros 32, none⟩

def seedDocument : Bytes :=
  Der.putSequence [Der.putNat 0, Der.putSequence [Der.putObjectId ObjectId.ed25519],
    Der.putOctets (Der.putOctets (Bytes.zeros 32))]

theorem read?_seedDocument : Pkcs8.read? seedDocument = some seedKey := by
  decide +kernel

/-- The document as "p" seals it, under a vector of zeros. -/
def seedEnvelope : Envelope :=
  .sealedWith (Bytes.zeros 16)
    [0x62, 0x3e, 0x9b, 0xe6, 0x21, 0x6e, 0x28, 0x11, 0x56, 0x1f, 0xc3, 0x7c, 0x0b, 0xf1, 0x2e, 0x63,
      0x77, 0x67, 0x7a, 0x5f, 0xb4, 0xc9, 0xb5, 0x92, 0xc7, 0x19, 0x72, 0xaa, 0xa2, 0x77, 0xe2, 0x9b,
      0x29, 0x8c, 0x03, 0x58, 0x2c, 0x64, 0x8c, 0x8c, 0x58, 0xb5, 0xbd, 0xb2, 0x32, 0xf8, 0x33, 0x73,
      0xf5, 0x91, 0x69, 0x2d, 0xcb, 0x2e, 0xa9, 0xec, 0x4b, 0xad, 0xb6, 0xc7, 0xcb, 0x76, 0x8d, 0xb5]

theorem decrypt?_seedEnvelope : seedEnvelope.decrypt? (Bytes.ofString "p") = some seedDocument := by
  decide +kernel

/-- Under another passphrase the padding does not fit. -/
theorem decrypt?_seedEnvelope_of_wrong : seedEnvelope.decrypt? (Bytes.ofString "q") = none := by
  decide +kernel

/-- The file of this envelope. -/
def seedFile : String :=
  trimmed Envelope.label (Envelope.sealedDocument (Bytes.zeros 16) seedEnvelope.ciphertext)

theorem ofText_seedFile : Text.contains seedFile encryptedPkcs8Marker = true ∧
    Envelope.ofText seedFile = .ok seedEnvelope :=
  envelope_trimmed (Envelope.read?_sealedDocument rfl (by decide))

theorem keyPair_seedFile : keyPair .pkcs8 seedFile (some "p") = .ok (.ofSeed (Bytes.zeros 32)) := by
  obtain ⟨hMarker, hText⟩ := ofText_seedFile
  have hOpen : seedEnvelope.open? (Bytes.ofString "p") = some seedKey := by
    rw [Envelope.open?, decrypt?_seedEnvelope]
    exact read?_seedDocument
  rw [keyPair_of_open hMarker hText hOpen]
  rfl

theorem keyPair_seedFile_of_wrong :
    keyPair .pkcs8 seedFile (some "q") = .error .decryptionFailed := by
  obtain ⟨hMarker, hText⟩ := ofText_seedFile
  have hClosed : seedEnvelope.open? (Bytes.ofString "q") = none :=
    Envelope.open?_eq_none_iff.2 (.inl decrypt?_seedEnvelope_of_wrong)
  exact keyPair_of_closed hMarker hText hClosed

/-- For every passphrase there is a file that it opens; the one that "p" opens stays closed under
"q", which is blamed; and a marker alone is blamed itself. -/
theorem faults_separate_opened :
    (∀ p, ∃ text e, Text.contains text encryptedPkcs8Marker = true ∧
      Envelope.ofText text = .ok e ∧
      privateKey .pkcs8 text (some p) = .ok ⟨.ofSeed (Bytes.zeros 32), "", none⟩ ∧
      ∃ inner, e.decrypt? (Bytes.ofString p) = some inner ∧ Pkcs8.read? inner ≠ none) ∧
    (keyPair .pkcs8 seedFile (some "p") = .ok (.ofSeed (Bytes.zeros 32)) ∧
      privateKey .pkcs8 seedFile (some "q") = .error .decryptionFailed) ∧
    ∀ wording p, BlamesDocument wording (privateKey .pkcs8 encryptedPkcs8Marker (some p))
      ("PKCS#8: " ++ wording ⟨.armor, Bytes.ofString encryptedPkcs8Marker⟩) := by
  refine ⟨fun p => ?_, ⟨keyPair_seedFile, ?_⟩, fun wording p => ?_⟩
  · have hSeed : (Bytes.zeros 32).length = 32 := List.length_replicate
    obtain ⟨text, hMarker, ⟨e, hText⟩, hKey⟩ := exists_privateKey_ofSeed hSeed p
    refine ⟨text, e, hMarker, hText, hKey, ?_⟩
    have hOpened := ((faults_separate hMarker).2 e p hText).not.1 (by rw [hKey]; nofun)
    rw [not_or, not_exists] at hOpened
    obtain ⟨inner, hInner⟩ := Option.ne_none_iff_exists'.1 hOpened.1
    exact ⟨inner, hInner, fun hNone => hOpened.2 inner ⟨hInner, hNone⟩⟩
  · obtain ⟨hMarker, hText⟩ := ofText_seedFile
    exact ((faults_separate hMarker).2 _ "q" hText).2 (.inl decrypt?_seedEnvelope_of_wrong)
  · have hMarker : Text.contains encryptedPkcs8Marker encryptedPkcs8Marker = true := by decide
    have hNone : Pem.labeled? encryptedPkcs8Marker = none := by decide +kernel
    have hText : Envelope.ofText encryptedPkcs8Marker =
        .error ⟨.armor, Bytes.ofString encryptedPkcs8Marker⟩ := by
      rw [Envelope.ofText, Pem.document, hNone]
    exact ((faults_separate hMarker).1 wording "" p _).1
      ((blamesDocument_iff hMarker "").2 ⟨_, hText, rfl⟩)

end PemFile

end SshKeys
