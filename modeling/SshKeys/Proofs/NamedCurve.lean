import SshKeys.Proofs.Load

/-!
# The curve of a SEC 1 document

A SEC 1 document may name its curve.  The name is read and dropped
(`Sec1.read?_eq_map`), and the curves are tried in the order of their widths.

* `Sec1.Fits`: a curve that accepts the scalar of a document, and its public point
  if there is one.
* `Sec1.Selects`: the first such curve.  `Sec1.Fits.selects` tells when it is the
  only one: a public point belongs to one curve, and so does a scalar that is too
  long for the curves before.
* `PemFile.keyPair_of_sec1`: **the key of a SEC 1 file is on the curve its document
  selects**, whichever it names; `PemFile.not_keyPair_of_sec1` gives two documents
  that are read as keys on a curve they do not name.
-/

namespace SshKeys

open Der (yields_sequence)
open StateOption (bind_of_some guard_of lift_of_some)

/-! ## Names of curves -/

namespace Sec1

/-- The document together with the name of the curve in it. -/
def namedReader : Der.Reader (Sec1 × Option Bytes) :=
  Der.sequence do
    let version ← Der.natWithin 1
    guard (version = 1)
    let scalar ← Der.octets
    let name ← Der.explicitField 0 Der.objectId
    let point ← Der.explicitField 1 (Der.content Der.bitStringTag)
    let point ← (wholeBits? point : Option _)
    pure (⟨scalar, point⟩, name)

def readNamed? (document : Bytes) : Option (Sec1 × Option Bytes) :=
  Der.whole namedReader document

/-- The name is dropped. -/
theorem read?_eq_map (document : Bytes) : read? document = (readNamed? document).map Prod.fst := by
  have hReader : reader = Prod.fst <$> namedReader := by
    rw [reader, namedReader, ← Der.sequence_map]
    simp only [map_bind, map_pure]
  rw [read?, readNamed?, ← Der.whole_map, hReader]

/-- The document of a scalar with the name of a curve, without its public point. -/
def writeNamed (name scalar : Bytes) : Bytes :=
  Der.putSequence
    [Der.putNat 1, Der.putOctets scalar, Der.put (Der.explicitTag 0) (Der.putObjectId name)]

theorem readNamed?_writeNamed {name scalar : Bytes} (hName : Der.isObjectId name = true)
    (hScalar : scalar.length ≤ 100) :
    readNamed? (writeNamed name scalar) = some (⟨scalar, none⟩, some name) := by
  have hMax : Der.maxLength = 268435455 := rfl
  have hVersion : (Der.putNat 1).length = 3 := by decide
  have hObject := Der.length_putObjectId_le hName
  have hField := Der.length_put_le (Der.explicitTag 0) (c := Der.putObjectId name) (by omega)
  have hOctets := Der.length_put_le Der.octetStringTag (c := scalar) (by omega)
  have hNameRun : Der.explicitField 0 Der.objectId
      (Der.put (Der.explicitTag 0) (Der.putObjectId name)) = some (some name, []) := by
    refine Der.field_of_eq (by decide) (by decide) (by decide) ?_
    have hTag : Der.isTag (Der.explicitTag 0) = true := by decide
    have hContent := Der.yields_content hTag (c := Der.putObjectId name) (by omega) []
    rw [List.append_nil] at hContent
    exact (bind_of_some hContent).trans (lift_of_some (Der.yields_objectId hName).whole)
  have hNoPoint : Der.explicitField 1 (Der.content Der.bitStringTag) [] = some (none, []) :=
    Der.field_nil ..
  have hBits : wholeBits? none = some none := rfl
  refine (yields_sequence ?_ ?_).whole
  · simp only [List.flatten_cons, List.flatten_nil, List.length_append, List.length_nil,
      Der.putOctets]
    omega
  · simp only [List.flatten_cons, List.flatten_nil, List.append_nil]
    rw [Der.whole, bind_of_some (Der.yields_natWithin_one (by decide) _),
      bind_of_some (guard_of rfl), bind_of_some (Der.yields_octets (by omega) _),
      bind_of_some hNameRun, bind_of_some hNoPoint, bind_of_some (lift_of_some hBits)]
    rfl

/-! ## The curve that is selected -/

variable {s : Sec1} {b c : NistCurve}

/-- The first curve that accepts the document. -/
structure Selects (s : Sec1) (c : NistCurve) : Prop where
  fits : s.Fits c
  first : ∀ b : NistCurve, b.fieldSize < c.fieldSize → ¬s.Fits b

theorem exists_selects (h : s.Fits c) : ∃ b, s.Selects b := by
  induction hk : c.fieldSize using Nat.strongRecOn generalizing c with
  | _ k ih =>
    by_cases hFirst : ∃ b : NistCurve, b.fieldSize < c.fieldSize ∧ s.Fits b
    · obtain ⟨b, hLt, hb⟩ := hFirst
      exact ih b.fieldSize (hk ▸ hLt) hb rfl
    · exact ⟨c, h, fun b hLt hb => hFirst ⟨b, hLt, hb⟩⟩

theorem Selects.unique (hb : s.Selects b) (hc : s.Selects c) : b = c := by
  have hEq : b.fieldSize = c.fieldSize := le_antisymm
    (Nat.not_lt.1 fun hLt => hb.first c hLt hc.fits)
    (Nat.not_lt.1 fun hLt => hc.first b hLt hb.fits)
  revert hEq
  cases b <;> cases c <;> decide

theorem Fits.length_point (h : s.Fits c) {p : Bytes} (hp : s.point = some p) :
    p.length = 2 * c.fieldSize + 1 ∨ p.length = c.fieldSize + 1 := by
  rcases h.point p hp with rfl | rfl
  · exact .inl (NistCurve.length_publicPoint ..)
  · rw [NistCurve.compressedPoint, List.length_cons, Bytes.length_ofNat]
    exact .inr rfl

/-- **A public point, or a scalar of the full width, settles the curve.** -/
theorem Fits.selects (h : s.Fits c) (hOwn : s.point ≠ none ∨ s.scalar.length = c.fieldSize) :
    s.Selects c := by
  refine ⟨h, fun b hLt hb => ?_⟩
  rcases hOwn with hPoint | hLength
  · obtain ⟨p, hp⟩ := Option.ne_none_iff_exists'.1 hPoint
    have hc := h.length_point hp
    have hb := hb.length_point hp
    revert hLt hb hc
    cases b <;> cases c <;> simp only [NistCurve.fieldSize] <;> omega
  · exact absurd hb.length_le (by omega)

end Sec1

namespace KeyPair

variable {s : Sec1}

theorem ofScalarOn?_of_selects {c : NistCurve} (h : s.Selects c) :
    ofScalarOn? s.scalarOn? = some (ofScalar c (Bytes.toNat s.scalar)) :=
  ofScalarOn?_eq_some (Sec1.scalarOn?_eq_some_iff.2 ⟨h.fits, rfl⟩)
    fun b hLt => Sec1.scalarOn?_eq_none_iff.2 (h.first b hLt)

theorem ofScalarOn?_eq_none (h : ∀ c, ¬s.Fits c) : ofScalarOn? s.scalarOn? = none := by
  rw [ofScalarOn?, List.findSome?_eq_none_iff]
  intro c _
  rw [Sec1.scalarOn?_eq_none_iff.2 (h c)]
  rfl

theorem ofScalarOn?_eq_some_iff {pair : KeyPair} : ofScalarOn? s.scalarOn? = some pair ↔
    ∃ c, s.Selects c ∧ pair = ofScalar c (Bytes.toNat s.scalar) := by
  constructor
  · intro h
    by_cases hFits : ∃ c, s.Fits c
    · obtain ⟨c, hc⟩ := hFits
      obtain ⟨b, hb⟩ := Sec1.exists_selects hc
      rw [ofScalarOn?_of_selects hb] at h
      exact ⟨b, hb, (Option.some_inj.1 h).symm⟩
    · rw [ofScalarOn?_eq_none (not_exists.1 hFits)] at h
      cases h
  · rintro ⟨c, hc, rfl⟩
    exact ofScalarOn?_of_selects hc

/-- The curve of an ECDSA key. -/
def IsOn (pair : KeyPair) (curve : NistCurve) : Prop :=
  ∃ point scalar, pair = .ecdsa curve point scalar

theorem isOn_ofScalar {b c : NistCurve} {d : Nat} : (ofScalar b d).IsOn c ↔ b = c := by
  constructor
  · rintro ⟨_, _, h⟩
    injection h
  · rintro rfl
    exact ⟨_, _, rfl⟩

end KeyPair

/-! ## Files -/

namespace PemFile

variable {text : String}

/-- The document of a SEC 1 file and the name of the curve in it. -/
def sec1? (text : String) : Option (Sec1 × Option Bytes) :=
  Pem.decode? Sec1.label text >>= Sec1.readNamed?

theorem IsSec1.keyPair_eq (h : IsSec1 text) (passphrase : Option String) :
    keyPair .pem text passphrase =
      match (sec1? text).bind fun document => KeyPair.ofScalarOn? document.1.scalarOn? with
      | none => .error (.unsupportedAlgorithm "кривая EC не поддерживается")
      | some pair => .ok pair := by
  have hRead : (Pem.decode? Sec1.label text >>= Sec1.read?) = (sec1? text).map Prod.fst := by
    rw [sec1?]
    cases Pem.decode? Sec1.label text with
    | none => rfl
    | some document => exact Sec1.read?_eq_map document
  rw [keyPair, traditional.eq_def, if_neg (by rw [h.legacy]; decide),
    if_neg (by rw [h.rsa]; decide), if_pos h.ec]
  simp only [hRead]
  cases sec1? text <;> rfl

theorem IsSec1.keyPair_ok_iff (h : IsSec1 text) {passphrase : Option String} {pair : KeyPair} :
    keyPair .pem text passphrase = .ok pair ↔
      ((sec1? text).bind fun document => KeyPair.ofScalarOn? document.1.scalarOn?) = some pair := by
  rw [h.keyPair_eq]
  split
  · next hNone => simp only [hNone, reduceCtorEq]
  · next hSome => simp only [hSome, Except.ok.injEq, Option.some.injEq]

theorem IsSec1.keyPair_error_iff (h : IsSec1 text) {passphrase : Option String} :
    keyPair .pem text passphrase = .error (.unsupportedAlgorithm "кривая EC не поддерживается") ↔
      ((sec1? text).bind fun document => KeyPair.ofScalarOn? document.1.scalarOn?) = none := by
  rw [h.keyPair_eq]
  split
  · next hNone => simp only [hNone]
  · next hSome => simp only [hSome, reduceCtorEq]

theorem sec1?_writeNamed {name scalar : Bytes} (hName : Der.isObjectId name = true)
    (hScalar : scalar.length ≤ 100) :
    sec1? (trimmed Sec1.label (Sec1.writeNamed name scalar)) =
      some (⟨scalar, none⟩, some name) :=
  decode?_bind (by decide) rfl (Sec1.readNamed?_writeNamed hName hScalar)

/-- **The key of a SEC 1 file is on the curve its document selects**, whichever it names.  It is
on the curve that is named if the document fits that curve and either holds its public point or a
scalar of its full width.  A file is refused if its document fits none of the three curves. -/
theorem keyPair_of_sec1 (h : IsSec1 text) (passphrase : Option String) :
    (∀ pair, keyPair .pem text passphrase = .ok pair ↔
      ∃ s name c, sec1? text = some (s, name) ∧ s.Selects c ∧
        pair = KeyPair.ofScalar c (Bytes.toNat s.scalar)) ∧
    (keyPair .pem text passphrase = .error (.unsupportedAlgorithm "кривая EC не поддерживается") ↔
      ∀ s name, sec1? text = some (s, name) → ∀ c, ¬s.Fits c) ∧
    ∀ s curve, sec1? text = some (s, some (ObjectId.curve curve)) →
      (∀ pair, keyPair .pem text passphrase = .ok pair → (pair.IsOn curve ↔ s.Selects curve)) ∧
      (s.Fits curve → (s.point ≠ none ∨ s.scalar.length = curve.fieldSize) →
        keyPair .pem text passphrase =
          .ok (KeyPair.ofScalar curve (Bytes.toNat s.scalar))) := by
  have hOk (pair : KeyPair) : keyPair .pem text passphrase = .ok pair ↔
      ∃ s name c, sec1? text = some (s, name) ∧ s.Selects c ∧
        pair = KeyPair.ofScalar c (Bytes.toNat s.scalar) := by
    rw [h.keyPair_ok_iff, Option.bind_eq_some_iff]
    constructor
    · rintro ⟨⟨s, name⟩, hRead, hPair⟩
      obtain ⟨c, hSelects, rfl⟩ := KeyPair.ofScalarOn?_eq_some_iff.1 hPair
      exact ⟨s, name, c, hRead, hSelects, rfl⟩
    · rintro ⟨s, name, c, hRead, hSelects, rfl⟩
      exact ⟨(s, name), hRead, KeyPair.ofScalarOn?_of_selects hSelects⟩
  refine ⟨hOk, ?_, fun s curve hNamed => ⟨fun pair hPair => ?_, fun hFits hOwn => ?_⟩⟩
  · rw [h.keyPair_error_iff, Option.bind_eq_none_iff]
    constructor
    · intro hNone s name hRead c hFits
      obtain ⟨b, hSelects⟩ := Sec1.exists_selects hFits
      have hSome := KeyPair.ofScalarOn?_of_selects hSelects
      rw [hNone (s, name) hRead] at hSome
      cases hSome
    · rintro hNot ⟨s, name⟩ hRead
      exact KeyPair.ofScalarOn?_eq_none (hNot s name hRead)
  · obtain ⟨s', name, c, hRead, hSelects, rfl⟩ := (hOk pair).1 hPair
    rw [hNamed] at hRead
    cases hRead
    rw [KeyPair.isOn_ofScalar]
    exact ⟨fun hEq => hEq ▸ hSelects, fun hOther => hSelects.unique hOther⟩
  · exact (hOk _).2 ⟨s, _, curve, hNamed, hFits.selects hOwn, rfl⟩

/-- The scalar one in the width of P-384, whose name comes with it. -/
theorem keyPair_of_sec1_p384 :
    keyPair .pem (trimmed Sec1.label
      (Sec1.writeNamed (ObjectId.curve .p384) (Bytes.ofNat 48 1))) none =
        .ok (KeyPair.ofScalar .p384 1) := by
  have hScalar : NistCurve.IsScalar .p384 1 := by decide
  have hValue : Bytes.toNat (Bytes.ofNat 48 1) = 1 := Sec1.toNat_scalar hScalar
  have hFits : Sec1.Fits ⟨Bytes.ofNat 48 1, none⟩ .p384 :=
    Sec1.fits_of_isScalar hScalar fun _ hp => nomatch hp
  have hRead := ((keyPair_of_sec1 (isSec1_trimmed _) none).2.2 _ .p384
    (sec1?_writeNamed (by decide) (by decide))).2 hFits (.inr rfl)
  rw [hRead, hValue]

/-- The scalar one in the width of P-256 is taken for a key on that curve, although the document
names P-384 or a curve that is not supported at all. -/
theorem not_keyPair_of_sec1 :
    let named := fun name => trimmed Sec1.label (Sec1.writeNamed name (Bytes.ofNat 32 1))
    let secp256k1 : Bytes := [0x2b, 0x81, 0x04, 0x00, 0x0a]
    (sec1? (named (ObjectId.curve .p384)) =
        some (⟨Bytes.ofNat 32 1, none⟩, some (ObjectId.curve .p384)) ∧
      keyPair .pem (named (ObjectId.curve .p384)) none = .ok (KeyPair.ofScalar .p256 1) ∧
      ¬(KeyPair.ofScalar .p256 1).IsOn .p384) ∧
    ((∀ curve, secp256k1 ≠ ObjectId.curve curve) ∧
      sec1? (named secp256k1) = some (⟨Bytes.ofNat 32 1, none⟩, some secp256k1) ∧
      keyPair .pem (named secp256k1) none = .ok (KeyPair.ofScalar .p256 1)) := by
  have hScalar : NistCurve.IsScalar .p256 1 := by decide
  have hValue : Bytes.toNat (Bytes.ofNat 32 1) = 1 := Sec1.toNat_scalar hScalar
  have hFits : Sec1.Fits ⟨Bytes.ofNat 32 1, none⟩ .p256 :=
    Sec1.fits_of_isScalar hScalar fun _ hp => nomatch hp
  have hSelects := hFits.selects (.inr rfl)
  have hRead {name : Bytes} (hName : Der.isObjectId name = true) :
      keyPair .pem (trimmed Sec1.label (Sec1.writeNamed name (Bytes.ofNat 32 1))) none =
        .ok (KeyPair.ofScalar .p256 1) := by
    rw [(isSec1_trimmed _).keyPair_ok_iff, sec1?_writeNamed hName (by decide), Option.bind_some,
      KeyPair.ofScalarOn?_of_selects hSelects, hValue]
  refine ⟨⟨sec1?_writeNamed (by decide) (by decide), hRead (by decide), ?_⟩,
    ?_, sec1?_writeNamed (by decide) (by decide), hRead (by decide)⟩
  · rw [KeyPair.isOn_ofScalar]
    decide
  · intro curve
    cases curve <;> decide

end PemFile

end SshKeys
