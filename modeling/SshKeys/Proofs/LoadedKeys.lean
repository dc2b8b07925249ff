import SshKeys.Proofs.Chain
import SshKeys.Proofs.General
import SshKeys.Proofs.Passphrase

/-!
# What a loaded key is

A document holds the private part of a key, and what is loaded from it is made
from that part (`PemFile.isDerived_of_load`).  A container holds both parts, and
what is loaded from it is only `Valid` (`PrivateKey.valid_of_load`): for Ed25519
that includes that the parts belong together, for ECDSA it does not.
`PrivateKey.exists_load_iff` says **which pairs of these families are loaded from
some text**, and `not_consistent_of_load` shows two that should not be.
-/

namespace SshKeys

/-! ## Documents -/

theorem NistCurve.lt_of_isScalar {curve : NistCurve} {d : Nat} (h : curve.IsScalar d) :
    d < 256 ^ curve.fieldSize :=
  h.2.trans_le curve.order_le

namespace KeyPair

theorem consistent_ofScalar {curve : NistCurve} {d : Nat} (h : curve.IsScalar d) :
    (ofScalar curve d).Consistent := by
  have hValue := Bytes.toNat_ofNat (NistCurve.lt_of_isScalar h)
  refine ⟨Bytes.length_ofNat _ _, ?_, ?_⟩
  · rwa [hValue]
  · rw [hValue]

/-- The pair is made from its private part; an RSA pair is made from numbers that pass the
checks. -/
def IsDerived : KeyPair → Prop
  | rsa pair => ∃ m, Rsa.check m = .ok () ∧ RsaPair.ofNumbers? m = some pair
  | k => k.Consistent

/-- Only RSA keys are made from numbers that are not looked at any further. -/
theorem IsDerived.rsa_or_consistent {k : KeyPair} (h : k.IsDerived) :
    (∃ pair m, k = .rsa pair ∧ Rsa.check m = .ok () ∧ RsaPair.ofNumbers? m = some pair) ∨
      k.Consistent ∧ k.Fits := by
  cases k with
  | rsa pair =>
    obtain ⟨m, hCheck, hPair⟩ := h
    exact .inl ⟨pair, m, rfl, hCheck, hPair⟩
  | ecdsa curve point scalar => exact .inr ⟨h, trivial⟩
  | ed25519 key seed => exact .inr ⟨h, trivial⟩
  | dsa _ => exact absurd h id
  | skEcdsa _ _ _ => exact absurd h id
  | skEd25519 _ _ _ => exact absurd h id
  | other _ _ _ => exact absurd h id

theorem IsDerived.valid {k : KeyPair} (h : k.IsDerived) (hFits : k.Fits) : k.Valid := by
  rcases h.rsa_or_consistent with ⟨pair, m, rfl, -, hPair⟩ | ⟨hConsistent, -⟩
  · exact valid_rsa (RsaPair.canonical_of_ofNumbers? hPair) hFits
  · exact hConsistent.valid hFits

/-- Reports can describe such a pair. -/
theorem IsDerived.ofPair_eq {k : KeyPair} (h : k.IsDerived) (comment : String) :
    PrivateKey.ofPair k comment = .ok ⟨k, comment, none⟩ := by
  rcases h.rsa_or_consistent with ⟨pair, m, rfl, -⟩ | ⟨hConsistent, -⟩
  · rfl
  · exact hConsistent.ofPair_eq comment

theorem isDerived_of_ofRsa {m : Rsa.Numbers} {k : KeyPair} (hCheck : Rsa.check m = .ok ())
    (h : ofRsa m = .ok k) : k.IsDerived := by
  rw [ofRsa] at h
  split at h
  · next pair hPair =>
    cases h
    exact ⟨m, hCheck, hPair⟩
  · cases h

theorem isDerived_ofScalar {curve : NistCurve} {d : Nat} (h : curve.IsScalar d) :
    (ofScalar curve d).IsDerived :=
  consistent_ofScalar h

theorem isDerived_of_ofScalarOn? {scalar? : NistCurve → Option Nat} {k : KeyPair}
    (hScalar : ∀ curve d, scalar? curve = some d → curve.IsScalar d)
    (h : ofScalarOn? scalar? = some k) : k.IsDerived := by
  obtain ⟨curve, -, hCurve⟩ := List.exists_of_findSome?_eq_some h
  obtain ⟨d, hd, rfl⟩ := Option.map_eq_some_iff.1 hCurve
  exact isDerived_ofScalar (hScalar curve d hd)

end KeyPair

theorem Pkcs1.check_of_read? {document : Bytes} {m : Rsa.Numbers}
    (h : Pkcs1.read? document = some m) : Rsa.check m = .ok () := by
  simp only [read?, Option.bind_eq_bind, Option.bind_eq_some_iff, Option.guard_eq_some'] at h
  obtain ⟨k, -, _, hCheck, h⟩ := h
  cases h
  cases hResult : Rsa.check m with
  | ok _ => rfl
  | error f =>
    rw [hResult] at hCheck
    cases hCheck

theorem Pkcs8.check_of_rsa? {k : Pkcs8} {m : Rsa.Numbers} (h : k.rsa? = some m) :
    Rsa.check m = .ok () := by
  rw [rsa?] at h
  split at h
  · exact Pkcs1.check_of_read? h
  · cases h

theorem Sec1.isScalar_of_scalarOn? {s : Sec1} {curve : NistCurve} {d : Nat}
    (h : s.scalarOn? curve = some d) : curve.IsScalar d := by
  obtain ⟨hFits, rfl⟩ := scalarOn?_eq_some_iff.1 h
  exact hFits.isScalar

theorem Pkcs8.isScalar_of_scalar? {k : Pkcs8} {curve : NistCurve} {d : Nat}
    (h : k.scalar? curve = some d) : curve.IsScalar d := by
  rw [scalar?] at h
  split at h
  · obtain ⟨s, -, hScalar⟩ := Option.bind_eq_some_iff.1 h
    exact Sec1.isScalar_of_scalarOn? hScalar
  · cases h

theorem Pkcs8.length_of_seed? {k : Pkcs8} {seed : Bytes} (h : k.seed? = some seed) :
    seed.length = 32 := by
  rw [seed?.eq_def] at h
  split at h
  · split at h
    · next hSeed =>
      cases h
      exact hSeed.2.1
    · cases h
  · cases h

theorem KeyPair.isDerived_of_ofPkcs8 {document : Pkcs8} {k : KeyPair}
    (h : ofPkcs8 document = .ok k) : k.IsDerived := by
  rw [ofPkcs8] at h
  split at h
  · next seed hSeed =>
    cases h
    exact ⟨Pkcs8.length_of_seed? hSeed, rfl⟩
  · split at h
    · next m hRsa => exact isDerived_of_ofRsa (Pkcs8.check_of_rsa? hRsa) h
    · split at h
      · next pair hPair =>
        cases h
        exact isDerived_of_ofScalarOn? (fun _ _ => Pkcs8.isScalar_of_scalar?) hPair
      · cases h

namespace PemFile

theorem isDerived_of_traditional {text : String} {passphrase : Option String} {k : KeyPair}
    (h : traditional text passphrase = .ok k) : k.IsDerived := by
  obtain ⟨-, ⟨_, m, -, hRead, hPair⟩ | ⟨_, s, -, -, hPair⟩⟩ := exists_of_traditional h
  · exact KeyPair.isDerived_of_ofRsa (Pkcs1.check_of_read? hRead) hPair
  · exact KeyPair.isDerived_of_ofScalarOn? (fun _ _ => Sec1.isScalar_of_scalarOn?) hPair

/-- A pair from a document is made from its private part. -/
theorem isDerived_of_keyPair {format : KeyFormat} {text : String} {passphrase : Option String}
    {k : KeyPair} (h : keyPair format text passphrase = .ok k) : k.IsDerived := by
  cases format with
  | openssh => cases h
  | pem => exact isDerived_of_traditional h
  | pkcs8 =>
    obtain ⟨document, -, h⟩ := Result.bind_eq_ok_iff.1 h
    exact KeyPair.isDerived_of_ofPkcs8 h

theorem isDerived_of_load {text : String} {passphrase : Option String} {k : PrivateKey}
    (hFormat : KeyFormat.ofText text ≠ .openssh) (h : PrivateKey.load text passphrase = .ok k) :
    k.pair.IsDerived ∧ k.comment = "" := by
  rw [load_of_format (KeyFormat.ofText_trim text) hFormat] at h
  split at h
  · cases h
  · obtain ⟨pair, hPair, h⟩ := Result.bind_eq_ok_iff.1 h
    rw [PrivateKey.ofPair_eq_ok h]
    exact ⟨isDerived_of_keyPair hPair, rfl⟩

end PemFile

/-! ## Containers -/

theorem Container.valid_of_decode {text : String} {passphrase : Option String} {c : Container}
    (h : decode text passphrase = .ok c) : c.pair.Valid := by
  obtain ⟨_, _, _, _, _, _, hAccepts⟩ := exists_accepts_iff.1 h
  exact KeyPair.valid_of_read hAccepts.pair_eq

namespace KeyReader

open StateExcept (bind_eq_ok_iff refuse_eq_ok_iff)

variable {i j : KeyInput}

theorem privateSection_eq_ok {key : PublicKey} {block : Nat} {k : PrivateKey}
    (h : privateSection key block i = .ok (k, j)) : k.pair.Valid := by
  obtain ⟨_, k₁, -, h⟩ := bind_eq_ok_iff.1 h
  obtain ⟨-, h⟩ := refuse_eq_ok_iff.1 h
  obtain ⟨first, k₂, -, h⟩ := bind_eq_ok_iff.1 h
  obtain ⟨second, k₃, -, h⟩ := bind_eq_ok_iff.1 h
  obtain ⟨-, h⟩ := refuse_eq_ok_iff.1 h
  obtain ⟨pair, k₄, hPair, h⟩ := bind_eq_ok_iff.1 h
  obtain ⟨-, h⟩ := refuse_eq_ok_iff.1 h
  obtain ⟨comment, k₅, -, h⟩ := bind_eq_ok_iff.1 h
  obtain ⟨n, k₆, -, h⟩ := bind_eq_ok_iff.1 h
  obtain ⟨-, h⟩ := refuse_eq_ok_iff.1 h
  have hEnd : k.pair = pair := by
    simp only at h
    split at h
    · obtain ⟨_, k₇, -, h⟩ := bind_eq_ok_iff.1 h
      obtain ⟨-, h⟩ := refuse_eq_ok_iff.1 h
      cases h
      rfl
    · cases h
      rfl
  rw [hEnd]
  exact keyPair_eq_ok hPair

theorem container_eq_ok {k : PrivateKey} (h : container i = .ok (.plain k, j)) : k.pair.Valid := by
  obtain ⟨_, cipher, _, kdf, _, _, key, _, -, -, -, -, -, hSection⟩ := steps_of_container h
  cases hSection with
  | plain _ hSection _ =>
    obtain ⟨_, _, _, -, hSection, -⟩ := nested_eq_ok_iff.1 hSection
    exact privateSection_eq_ok hSection

end KeyReader

namespace GeneralContainer

theorem valid_of_parse {text : String} {k : PrivateKey} (h : parse text = .ok (.plain k)) :
    k.pair.Valid := by
  rw [parse] at h
  split at h
  · cases h
  · next input _ =>
    cases hRun : KeyReader.container.run input with
    | error f =>
      rw [hRun] at h
      cases h
    | ok p =>
      obtain ⟨c, rest⟩ := p
      rw [hRun] at h
      cases h
      exact KeyReader.container_eq_ok hRun

theorem valid_of_decrypt {c : SectionCipher} {kdf : Option KdfParameters} {key : PublicKey}
    {ciphertext tag passphrase : Bytes} {k : PrivateKey}
    (h : decrypt c kdf key ciphertext tag passphrase = .ok k) : k.pair.Valid := by
  obtain ⟨_, _, _, _, -, -, -, hSection⟩ := decrypt_eq_ok h
  exact KeyReader.privateSection_eq_ok hSection

theorem valid_of_privateKey {text : String} {passphrase : Option Bytes} {k : PrivateKey}
    (h : privateKey text passphrase = .ok k) : k.pair.Valid := by
  rcases privateKey_eq_ok h with hParse | ⟨_, _, _, _, _, _, -, -, hDecrypt⟩
  · exact valid_of_parse hParse
  · exact valid_of_decrypt hDecrypt

end GeneralContainer

namespace PrivateKey

/-- A key from a container is one that the readers of key material can give. -/
theorem valid_of_load {text : String} {passphrase : Option String} {k : PrivateKey}
    (hFormat : KeyFormat.ofText text = .openssh) (h : load text passphrase = .ok k) :
    k.pair.Valid := by
  cases hDetect : Detection.ofText .openssh text with
  | error f =>
    have hKey : Detection.ofKey text = .error f := by rw [Detection.ofKey, hFormat, hDetect]
    rw [load_of_ofKey_error hKey] at h
    cases h
  | ok d =>
    obtain ⟨payload, name, hUnwrap, hName, -⟩ := exists_payload_of_ofText hDetect
    rw [load_of_unwrap hUnwrap hName] at h
    split at h
    · cases h
    · split at h
      · obtain ⟨c, hDecode, h⟩ := Result.bind_eq_ok_iff.1 h
        rw [ofPair_eq_ok h]
        exact Container.valid_of_decode hDecode
      · exact GeneralContainer.valid_of_privateKey h

end PrivateKey

/-! ## Which pairs are loaded -/

namespace PrivateKey

theorem ofText_toContainer (k : PrivateKey) : KeyFormat.ofText k.toContainer = .openssh := by
  have hUnwrap : Armor.unwrap k.toContainer = .ok _ :=
    Armor.unwrap_wrap (ContainerHeader.payload_ne_nil _)
  exact KeyFormat.ofText_of_unwrap hUnwrap

/-- A pair is loaded from its container, whether its parts belong together or not. -/
theorem load_toContainer {k : PrivateKey} (hPair : k.pair.Valid) {t : KeyType}
    (hType : k.pair.publicKey.keyType = .ok t)
    (hSection : Section.length k.pair.blob.length k.comment.utf8ByteSize
      CipherKind.none.profile.blockSize < 2 ^ 32) (passphrase : Option String) :
    load k.toContainer passphrase = .ok ⟨k.pair, k.comment, none⟩ := by
  rw [load_of_decode (decode_toContainer hPair hSection passphrase), ofPair, checked]
  simp only [hType]
  rfl

end PrivateKey

namespace KeyPair

theorem length_le_of_curveOfPoint {curve : NistCurve} {point : Bytes}
    (h : KeyReader.curveOfPoint point = .ok curve) : point.length ≤ 133 := by
  have hSize {n : Nat} {c : NistCurve} (hCurve : KeyReader.curveOfSize? n = some c) : n ≤ 66 := by
    rw [KeyReader.curveOfSize?] at hCurve
    have hEq := List.find?_some hCurve
    rw [← of_decide_eq_true hEq]
    exact c.fieldSize_le
  cases point with
  | nil => cases h
  | cons tag coordinates =>
    rw [KeyReader.curveOfPoint] at h
    rw [List.length_cons]
    split at h
    · split at h
      · next c hCurve =>
        have hLe := hSize hCurve
        omega
      · cases h
    · split at h
      · split at h
        · next c hCurve =>
          have hLe := hSize hCurve
          split at h
          · omega
          · cases h
        · cases h
      · split at h <;> cases h

/-- The form of the point and the width of the scalar are all that a reader asks for. -/
theorem valid_ecdsa_iff {curve : NistCurve} {point scalar : Bytes} :
    (ecdsa curve point scalar).Valid ↔
      scalar.length = curve.fieldSize ∧ KeyReader.curveOfPoint point = .ok curve := by
  constructor
  · rintro ⟨⟨hPoint, -⟩, hScalar⟩
    exact ⟨hScalar, hPoint⟩
  · rintro ⟨hScalar, hPoint⟩
    exact ⟨⟨hPoint, length_le_of_curveOfPoint hPoint⟩, hScalar⟩

theorem Valid.section_ecdsa_lt {curve : NistCurve} {point scalar : Bytes}
    (h : (ecdsa curve point scalar).Valid) :
    Section.length (ecdsa curve point scalar).blob.length "".utf8ByteSize
      CipherKind.none.profile.blockSize < 2 ^ 32 := by
  obtain ⟨⟨-, hPoint⟩, hScalar⟩ := h
  replace hScalar : scalar.length = curve.fieldSize := hScalar
  have hField := curve.fieldSize_le
  have hCurve := curve.name_le
  have hMax : KeyReader.maxName = 48 := rfl
  have hName : (ecdsa curve point scalar).algorithm.name.utf8ByteSize ≤ KeyReader.maxName :=
    (Algorithm.isNamed fun _ => Algorithm.noConfusion).2
  have hSecret : (scalarField scalar).length ≤ scalar.length + 1 := by
    rw [scalarField]
    split <;> simp
  have hBlob : (ecdsa curve point scalar).blob.length < 2 ^ 31 := by
    rw [blob, List.length_append, Field.length_putText, Field.stringLength]
    simp only [fields, List.length_append, Field.length_putString, Field.length_putText,
      Field.stringLength]
    omega
  have hPadding := Section.paddingLength_lt (Container.blockSize_pos .none)
    (8 + (ecdsa curve point scalar).blob.length + Field.stringLength "".utf8ByteSize)
  have hBlock : CipherKind.none.profile.blockSize = 8 := rfl
  have hEmpty : "".utf8ByteSize = 0 := by decide
  simp only [Section.length, Field.stringLength, hEmpty, hBlock] at hPadding ⊢
  omega

end KeyPair

namespace PrivateKey

/-- **Which pairs are loaded.**  An Ed25519 key belongs to its seed, and an ECDSA point to its
scalar if it comes from a document; in a container every point goes with every scalar. -/
theorem exists_load_iff (curve : NistCurve) (point scalar key seed : Bytes) :
    ((∃ text passphrase k, load text passphrase = .ok k ∧ k.pair = .ed25519 key seed) ↔
      seed.length = 32 ∧ key = Ed25519.publicKey seed) ∧
    ((∃ text passphrase k, KeyFormat.ofText text ≠ .openssh ∧ load text passphrase = .ok k ∧
        k.pair = .ecdsa curve point scalar) ↔
      scalar.length = curve.fieldSize ∧ curve.IsScalar (Bytes.toNat scalar) ∧
        point = curve.publicPoint (Bytes.toNat scalar)) ∧
    ((∃ text passphrase k, KeyFormat.ofText text = .openssh ∧ load text passphrase = .ok k ∧
        k.pair = .ecdsa curve point scalar) ↔
      scalar.length = curve.fieldSize ∧ KeyReader.curveOfPoint point = .ok curve) := by
  refine ⟨⟨?_, ?_⟩, ⟨?_, ?_⟩, ?_, ?_⟩
  · rintro ⟨text, passphrase, k, hLoad, hPair⟩
    by_cases hFormat : KeyFormat.ofText text = .openssh
    · have hValid := valid_of_load hFormat hLoad
      rw [hPair] at hValid
      exact ⟨hValid.secret.1, hValid.secret.2.symm⟩
    · obtain ⟨hDerived, -⟩ := PemFile.isDerived_of_load hFormat hLoad
      rw [hPair] at hDerived
      exact hDerived
  · intro hParts
    have hConsistent : KeyPair.Consistent (.ed25519 key seed) := hParts
    obtain ⟨text, -, hLoad⟩ := KeyPair.exists_toPkcs8 hConsistent trivial
    exact ⟨text, none, _, (hLoad none).trans (hConsistent.ofPair_eq ""), rfl⟩
  · rintro ⟨text, passphrase, k, hFormat, hLoad, hPair⟩
    obtain ⟨hDerived, -⟩ := PemFile.isDerived_of_load hFormat hLoad
    rw [hPair] at hDerived
    exact hDerived
  · rintro ⟨hLength, hScalar, rfl⟩
    obtain ⟨document, hRead, hPair⟩ := KeyPair.ofPkcs8_ofScalar hScalar
    refine ⟨_, none, _, ?_, (PemFile.load_pkcs8 hRead hPair none).trans
      ((KeyPair.consistent_ofScalar hScalar).ofPair_eq ""), KeyPair.ofScalar_toNat hLength⟩
    rw [PemFile.ofText_encode PemFile.isPlain_pkcs8]
    exact PemFile.formatOf_ne _
  · rintro ⟨text, passphrase, k, hFormat, hLoad, hPair⟩
    have hValid := valid_of_load hFormat hLoad
    rw [hPair] at hValid
    exact KeyPair.valid_ecdsa_iff.1 hValid
  · intro hParts
    have hValid := KeyPair.valid_ecdsa_iff.2 hParts
    have hLoad := load_toContainer (k := ⟨.ecdsa curve point scalar, "", none⟩) hValid rfl
      hValid.section_ecdsa_lt none
    exact ⟨_, none, _, ofText_toContainer _, hLoad, rfl⟩

/-- Any point of a curve is loaded beside any scalar. -/
theorem load_mismatched {curve : NistCurve} (d : Nat) {scalar : Bytes}
    (h : scalar.length = curve.fieldSize) :
    load (toContainer ⟨.ecdsa curve (curve.publicPoint d) scalar, "", none⟩) none =
      .ok ⟨.ecdsa curve (curve.publicPoint d) scalar, "", none⟩ := by
  have hValid := KeyPair.valid_ecdsa_iff.2 ⟨h, KeyPair.curveOfPoint_publicPoint curve d⟩
  exact load_toContainer (k := ⟨.ecdsa curve (curve.publicPoint d) scalar, "", none⟩) hValid rfl
    hValid.section_ecdsa_lt none

/-- The scalar one is loaded beside twice the base point, and the scalar zero beside the base
point. -/
theorem not_consistent_of_load :
    (∃ k, load (toContainer ⟨.ecdsa .p256 (NistCurve.p256.publicPoint 2) (Bytes.ofNat 32 1), "",
        none⟩) none = .ok k ∧
      k.pair = .ecdsa .p256 (NistCurve.p256.publicPoint 2) (Bytes.ofNat 32 1) ∧
      NistCurve.p256.publicPoint 2 ≠
        NistCurve.p256.publicPoint (Bytes.toNat (Bytes.ofNat 32 1))) ∧
    ∃ k, load (toContainer ⟨.ecdsa .p256 (NistCurve.p256.publicPoint 1) (Bytes.zeros 32), "",
        none⟩) none = .ok k ∧
      k.pair = .ecdsa .p256 (NistCurve.p256.publicPoint 1) (Bytes.zeros 32) ∧
      ¬NistCurve.p256.IsScalar (Bytes.toNat (Bytes.zeros 32)) := by
  refine ⟨⟨_, load_mismatched 2 rfl, rfl, ?_⟩, _, load_mismatched 1 rfl, rfl, ?_⟩
  · decide +kernel
  · decide +kernel

end PrivateKey

end SshKeys
