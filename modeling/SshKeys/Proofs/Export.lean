import SshKeys.Proofs.Load

/-!
# Keys that can be written in every format

A key pair is `Consistent` when its public part is the one its private part
determines.  `KeyPair.exists_toPem` and `KeyPair.exists_toPkcs8`: **a consistent
key is written as a PEM file and loaded from it again**, with the inverse of its
second factor computed anew.
-/

namespace SshKeys

open KeyReader (isCanonical IsInteger)

/-! ## RSA pairs -/

namespace RsaPair

/-- Each integer is written in its one form. -/
structure Canonical (k : RsaPair) : Prop where
  n : isCanonical k.n = true
  e : isCanonical k.e = true
  d : isCanonical k.d = true
  iqmp : isCanonical k.iqmp = true
  p : isCanonical k.p = true
  q : isCanonical k.q = true

/-- The integers are positive, pass the checks, and the factors have no common divisor. -/
structure Consistent (k : RsaPair) : Prop where
  canonical : k.Canonical
  numbers : ∃ m, k.numbers? = some m ∧ Rsa.check m = .ok () ∧ Nat.Coprime m.p m.q

/-- No integer takes more bytes than a field of a key may have. -/
structure Fits (k : RsaPair) : Prop where
  n : k.n.length ≤ KeyReader.maxLength
  e : k.e.length ≤ KeyReader.maxLength
  d : k.d.length ≤ KeyReader.maxLength
  iqmp : k.iqmp.length ≤ KeyReader.maxLength
  p : k.p.length ≤ KeyReader.maxLength
  q : k.q.length ≤ KeyReader.maxLength

/-- The pair with the inverse of its second factor modulo the first. -/
def recomputed (k : RsaPair) : RsaPair :=
  match k.numbers?.bind Rsa.Numbers.qinv? with
  | some qinv => { k with iqmp := Integer.ofNat qinv }
  | none => k

/-- Whatever the numbers are, each is written in its one form. -/
theorem canonical_of_ofNumbers? {m : Rsa.Numbers} {k : RsaPair} (h : ofNumbers? m = some k) :
    k.Canonical := by
  obtain ⟨qinv, -, hPair⟩ := Option.bind_eq_some_iff.1 h
  cases hPair
  exact ⟨Integer.isCanonical_ofNat _, Integer.isCanonical_ofNat _, Integer.isCanonical_ofNat _,
    Integer.isCanonical_ofNat _, Integer.isCanonical_ofNat _, Integer.isCanonical_ofNat _⟩

theorem numbers?_eq_some {k : RsaPair} {m : Rsa.Numbers} (h : k.numbers? = some m) :
    Integer.value? k.n = some m.n ∧ Integer.value? k.e = some m.e ∧
      Integer.value? k.d = some m.d ∧ Integer.value? k.p = some m.p ∧
      Integer.value? k.q = some m.q := by
  simp only [numbers?, Option.bind_eq_bind, Option.bind_eq_some_iff, Option.pure_def] at h
  obtain ⟨n, hn, e, he, d, hd, p, hp, q, hq, hEq⟩ := h
  cases hEq
  exact ⟨hn, he, hd, hp, hq⟩

theorem recomputed_eq {k : RsaPair} {m : Rsa.Numbers} {qinv : Nat} (h : k.numbers? = some m)
    (hInverse : m.qinv? = some qinv) : k.recomputed = { k with iqmp := Integer.ofNat qinv } := by
  rw [recomputed, h, Option.bind_some, hInverse]

/-- What a consistent pair is exported as, and what is made of it on import. -/
theorem Consistent.exists_export {k : RsaPair} (h : k.Consistent) :
    ∃ m qinv, k.numbers? = some m ∧ KeyPair.exportNumbers k = .ok (m, qinv) ∧
      Rsa.check m = .ok () ∧ qinv < m.p ∧ ofNumbers? m = some k.recomputed := by
  obtain ⟨m, hNumbers, hCheck, hCoprime⟩ := h.numbers
  obtain ⟨qinv, hInverse, hLt⟩ := Rsa.Numbers.exists_qinv? hCheck hCoprime
  obtain ⟨hn, he, hd, hp, hq⟩ := numbers?_eq_some hNumbers
  refine ⟨m, qinv, hNumbers, ?_, hCheck, hLt, ?_⟩
  · simp only [KeyPair.exportNumbers, hNumbers, hCheck, hInverse]
  · rw [recomputed_eq hNumbers hInverse, ofNumbers?, hInverse]
    simp only [Option.bind_eq_bind, Option.bind_some, Option.pure_def,
      Integer.ofNat_of_value? h.canonical.n hn, Integer.ofNat_of_value? h.canonical.e he,
      Integer.ofNat_of_value? h.canonical.d hd, Integer.ofNat_of_value? h.canonical.p hp,
      Integer.ofNat_of_value? h.canonical.q hq]

theorem Fits.numbers {k : RsaPair} {m : Rsa.Numbers} (hFits : k.Fits) (hCanonical : k.Canonical)
    (h : k.numbers? = some m) : m.Fits KeyReader.maxLength := by
  obtain ⟨hn, he, hd, hp, hq⟩ := numbers?_eq_some h
  refine ⟨?_, ?_, ?_, ?_, ?_⟩
  · rw [Integer.ofNat_of_value? hCanonical.n hn]
    exact hFits.n
  · rw [Integer.ofNat_of_value? hCanonical.e he]
    exact hFits.e
  · rw [Integer.ofNat_of_value? hCanonical.d hd]
    exact hFits.d
  · rw [Integer.ofNat_of_value? hCanonical.p hp]
    exact hFits.p
  · rw [Integer.ofNat_of_value? hCanonical.q hq]
    exact hFits.q

/-- The inverse is smaller than the factor it belongs to, so it fits where that does. -/
theorem Consistent.recomputed_spec {k : RsaPair} (h : k.Consistent) :
    k.recomputed.Consistent ∧ (k.Fits → k.recomputed.Fits) ∧
      k.recomputed.recomputed = k.recomputed := by
  obtain ⟨m, hNumbers, hCheck, hCoprime⟩ := h.numbers
  obtain ⟨qinv, hInverse, hLt⟩ := Rsa.Numbers.exists_qinv? hCheck hCoprime
  have hc := h.canonical
  have hSame : RsaPair.numbers? { k with iqmp := Integer.ofNat qinv } = some m := hNumbers
  rw [recomputed_eq hNumbers hInverse]
  refine ⟨⟨⟨hc.n, hc.e, hc.d, Integer.isCanonical_ofNat qinv, hc.p, hc.q⟩, m, hSame, hCheck,
    hCoprime⟩, fun hFits => ⟨hFits.n, hFits.e, hFits.d, ?_, hFits.p, hFits.q⟩, ?_⟩
  · exact (Integer.length_ofNat_mono hLt.le).trans (hFits.numbers hc hNumbers).p
  · rw [recomputed_eq hSame hInverse]

end RsaPair

/-! ## Key pairs -/

namespace KeyPair

/-- The public part is the one the private part determines. -/
def Consistent : KeyPair → Prop
  | rsa k => k.Consistent
  | ecdsa curve point scalar =>
    scalar.length = curve.fieldSize ∧ curve.IsScalar (Bytes.toNat scalar) ∧
      point = curve.publicPoint (Bytes.toNat scalar)
  | ed25519 key seed => seed.length = 32 ∧ key = Ed25519.publicKey seed
  | _ => False

/-- The integers of an RSA key have the size of a field; other keys are short. -/
def Fits : KeyPair → Prop
  | rsa k => k.Fits
  | _ => True

/-- The pair as it comes out of a document: an RSA key has its inverse computed anew. -/
def recomputed : KeyPair → KeyPair
  | rsa k => rsa k.recomputed
  | k => k

theorem Consistent.recomputed_spec {k : KeyPair} (h : k.Consistent) :
    k.recomputed.Consistent ∧ (k.Fits → k.recomputed.Fits) ∧
      k.recomputed.recomputed = k.recomputed := by
  cases k with
  | rsa k =>
    obtain ⟨hConsistent, hFits, hSame⟩ := RsaPair.Consistent.recomputed_spec h
    exact ⟨hConsistent, hFits, congrArg rsa hSame⟩
  | _ => exact ⟨h, id, rfl⟩

@[simp] theorem publicKey_recomputed (k : KeyPair) : k.recomputed.publicKey = k.publicKey := by
  cases k with
  | rsa k =>
    rw [recomputed, RsaPair.recomputed]
    split <;> rfl
  | _ => rfl

theorem curveOfPoint_publicPoint (curve : NistCurve) (d : Nat) :
    KeyReader.curveOfPoint (curve.publicPoint d) = .ok curve := by
  obtain ⟨coordinates, hPoint, hLength⟩ := curve.exists_publicPoint d
  have hSize : 2 * curve.fieldSize / 2 = curve.fieldSize := by omega
  have hEven : 2 * curve.fieldSize % 2 = 0 := by omega
  have hCurve : KeyReader.curveOfSize? curve.fieldSize = some curve := by
    cases curve <;> decide
  rw [hPoint, KeyReader.curveOfPoint, hLength, hSize, hCurve, if_neg (by decide), if_pos rfl]
  exact if_pos hEven

/-- The forms and the lengths of the integers are all that a reader asks for. -/
theorem valid_rsa {k : RsaPair} (hc : k.Canonical) (hFits : k.Fits) : (rsa k).Valid :=
  ⟨⟨⟨hc.e, hFits.e⟩, hc.n, hFits.n⟩, ⟨hc.d, hFits.d⟩, ⟨hc.iqmp, hFits.iqmp⟩, ⟨hc.p, hFits.p⟩,
    hc.q, hFits.q⟩

/-- A consistent key is one that a reader can give. -/
theorem Consistent.valid {k : KeyPair} (h : k.Consistent) (hFits : k.Fits) : k.Valid := by
  cases k with
  | rsa k => exact valid_rsa (RsaPair.Consistent.canonical h) hFits
  | ecdsa curve point scalar =>
    obtain ⟨hLength, -, rfl⟩ := h
    have hPoint := curve.length_publicPoint (Bytes.toNat scalar)
    have hField := curve.fieldSize_bounds.2
    exact ⟨⟨curveOfPoint_publicPoint curve _, by omega⟩, hLength⟩
  | ed25519 key seed =>
    obtain ⟨hSeed, rfl⟩ := h
    exact ⟨Ed25519.length_publicKey seed, hSeed, rfl⟩
  | _ => exact absurd h id

/-- A key that fits is short beside what a private section may hold. -/
theorem Consistent.length_blob_le {k : KeyPair} (h : k.Consistent) (hFits : k.Fits) :
    k.blob.length ≤ 2 ^ 23 := by
  have hMax : KeyReader.maxLength = 1048575 := rfl
  have hMaxName : KeyReader.maxName = 48 := rfl
  have hName : k.algorithm.name.utf8ByteSize ≤ KeyReader.maxName :=
    (h.valid hFits).publicKey.isNamed.2
  rw [blob, List.length_append, Field.length_putText, Field.stringLength]
  cases k with
  | rsa k =>
    obtain ⟨hn, he, hd, hiqmp, hp, hq⟩ : k.Fits := hFits
    simp only [fields, List.length_append, Field.length_putString, Field.stringLength]
    omega
  | ecdsa curve point scalar =>
    obtain ⟨hLength, -, hPoint⟩ := h
    have hField := curve.fieldSize_bounds.2
    have hPointLength := curve.length_publicPoint (Bytes.toNat scalar)
    have hCurve := curve.name_le
    have hScalar : (scalarField scalar).length ≤ scalar.length + 1 := by
      rw [scalarField]
      split <;> simp
    rw [← hPoint] at hPointLength
    simp only [fields, List.length_append, Field.length_putString, Field.length_putText,
      Field.stringLength]
    omega
  | ed25519 key seed =>
    obtain ⟨hSeed, hKey⟩ := h
    have hLength := Ed25519.length_publicKey seed
    rw [← hKey] at hLength
    simp only [fields, List.length_append, Field.length_putString, Field.stringLength]
    omega
  | _ => exact absurd h id

/-- Reports can describe a consistent key. -/
theorem Consistent.exists_info {k : KeyPair} (h : k.Consistent) :
    ∃ t n, k.publicKey.keyType = .ok t ∧ k.publicKey.bitLength = .ok n := by
  cases k with
  | rsa k => exact ⟨_, _, rfl, rfl⟩
  | ecdsa curve point scalar => exact ⟨_, _, rfl, rfl⟩
  | ed25519 key seed => exact ⟨_, _, rfl, rfl⟩
  | _ => exact absurd h id

theorem Consistent.ofPair_eq {k : KeyPair} (h : k.Consistent) (comment : String) :
    PrivateKey.ofPair k comment = .ok ⟨k, comment, none⟩ := by
  obtain ⟨t, -, hType, -⟩ := h.exists_info
  rw [PrivateKey.ofPair, PrivateKey.checked]
  simp only [hType]
  rfl

/-- A scalar in as many bytes as a coordinate is the one its value is written as. -/
theorem ofScalar_toNat {curve : NistCurve} {scalar : Bytes} (h : scalar.length = curve.fieldSize) :
    ofScalar curve (Bytes.toNat scalar) =
      .ecdsa curve (curve.publicPoint (Bytes.toNat scalar)) scalar := by
  rw [ofScalar, ← h, Bytes.ofNat_toNat]

/-! ## PEM files -/

theorem exists_toPkcs8 {k : KeyPair} (h : k.Consistent) (hFits : k.Fits) :
    ∃ text, k.toPkcs8 = .ok text ∧
      ∀ passphrase, PrivateKey.load text passphrase = PrivateKey.ofPair k.recomputed "" := by
  cases k with
  | rsa k =>
    obtain ⟨m, qinv, hNumbers, hExport, hCheck, hLt, hImport⟩ :=
      RsaPair.Consistent.exists_export h
    have hNumbersFit : m.Fits KeyReader.maxLength :=
      RsaPair.Fits.numbers hFits h.canonical hNumbers
    obtain ⟨document, hRead, hPair⟩ := ofPkcs8_ofRsa hCheck hNumbersFit hLt
    rw [ofRsa, hImport] at hPair
    refine ⟨Pem.encode Pkcs8.label (Pkcs8.ofRsa m qinv), ?_, PemFile.load_pkcs8 hRead hPair⟩
    rw [toPkcs8, hExport]
    rfl
  | ecdsa curve point scalar =>
    obtain ⟨hLength, hScalar, rfl⟩ := h
    obtain ⟨document, hRead, hPair⟩ := ofPkcs8_ofScalar hScalar
    rw [ofScalar_toNat hLength] at hPair
    refine ⟨Pem.encode Pkcs8.label (Pkcs8.ofScalar curve (Bytes.toNat scalar)), ?_,
      PemFile.load_pkcs8 hRead hPair⟩
    rw [toPkcs8, exportScalar]
    simp only [if_pos hScalar]
    rfl
  | ed25519 key seed =>
    obtain ⟨hSeed, rfl⟩ := h
    obtain ⟨document, hRead, hPair⟩ := ofPkcs8_ofSeed hSeed
    exact ⟨_, rfl, PemFile.load_pkcs8 hRead hPair⟩
  | _ => exact absurd h id

theorem exists_toPem {k : KeyPair} (h : k.Consistent) (hFits : k.Fits) :
    ∃ text, k.toPem = .ok text ∧
      ∀ passphrase, PrivateKey.load text passphrase = PrivateKey.ofPair k.recomputed "" := by
  cases k with
  | rsa k =>
    obtain ⟨m, qinv, hNumbers, hExport, hCheck, hLt, hImport⟩ :=
      RsaPair.Consistent.exists_export h
    have hNumbersFit : m.Fits KeyReader.maxLength :=
      RsaPair.Fits.numbers hFits h.canonical hNumbers
    refine ⟨Pem.encode Pkcs1.label (Pkcs1.write m qinv), ?_, fun passphrase => ?_⟩
    · rw [toPem, hExport]
      rfl
    · rw [PemFile.load_pkcs1 (Pkcs1.read?_write hCheck hNumbersFit (by decide) hLt), ofRsa, hImport]
      rfl
  | ecdsa curve point scalar =>
    obtain ⟨hLength, hScalar, rfl⟩ := h
    have hPair := ofScalarOn?_eq hScalar
    rw [ofScalar_toNat hLength] at hPair
    refine ⟨Pem.encode Sec1.label (Sec1.write curve (Bytes.toNat scalar)), ?_,
      PemFile.load_sec1 (Sec1.read?_write ..) hPair⟩
    rw [toPem, exportScalar]
    simp only [if_pos hScalar]
    rfl
  | ed25519 key seed => exact exists_toPkcs8 (k := ed25519 key seed) h hFits
  | _ => exact absurd h id

end KeyPair

end SshKeys
