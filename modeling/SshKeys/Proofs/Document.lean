import SshKeys.Document.Import
import SshKeys.Proofs.Der
import SshKeys.Proofs.Rsa

/-!
# Documents read back

Each document the library writes is read back as what it was written from:
`Pkcs1.read?_write`, `Sec1.read?_write` and one fact about `Pkcs8.read?` for each
family.  `Sec1.Fits` is what a curve asks of a scalar; `ofScalarOn?_eq` shows that
one in the width of its own curve is not taken for one of another.
-/

namespace SshKeys

open Der (Yields yields_sequence)
open StateOption (bind_of_some guard_of lift_of_some)

/-! ## RSA keys -/

theorem Der.length_putNats_le {k : Nat} (hk : k < Der.maxLength) {l : List Nat}
    (h : ∀ n ∈ l, (Integer.ofNat n).length ≤ k) :
    (l.map Der.putNat).flatten.length ≤ l.length * (k + 7) := by
  induction l with
  | nil => exact Nat.zero_le _
  | cons n l ih =>
    have hn := h n List.mem_cons_self
    have hPut := Der.length_putNat_le (hn.trans_lt hk)
    have hRest := ih fun m hm => h m (List.mem_cons_of_mem n hm)
    rw [List.map_cons, List.flatten_cons, List.length_append, List.length_cons, Nat.add_mul]
    omega

namespace Pkcs1

/-- Everything in the document of a key is as short as the key itself. -/
theorem length_ofNat_le {k : Rsa.Numbers} {qinv limit : Nat} (hCheck : Rsa.check k = .ok ())
    (hFits : k.Fits limit) (hInverse : qinv < k.p) :
    ∀ n ∈ [0, k.n, k.e, k.d, k.p, k.q, k.dp, k.dq, qinv], (Integer.ofNat n).length ≤ limit := by
  have hp := hFits.p
  have hq := hFits.q
  have hdp := Integer.length_ofNat_mono (Rsa.Numbers.dp_lt hCheck).le
  have hdq := Integer.length_ofNat_mono (Rsa.Numbers.dq_lt hCheck).le
  have hQinv := Integer.length_ofNat_mono hInverse.le
  have hZero : (Integer.ofNat 0).length = 0 := rfl
  simp only [List.mem_cons, List.not_mem_nil, or_false, forall_eq_or_imp, forall_eq]
  exact ⟨by omega, hFits.n, hFits.e, hFits.d, hp, hq, by omega, by omega, by omega⟩

theorem length_numbers_le {k : Rsa.Numbers} {qinv limit : Nat} (hCheck : Rsa.check k = .ok ())
    (hFits : k.Fits limit) (hLimit : limit < Der.maxLength) (hInverse : qinv < k.p) :
    ([0, k.n, k.e, k.d, k.p, k.q, k.dp, k.dq, qinv].map Der.putNat).flatten.length ≤
      9 * (limit + 7) :=
  Der.length_putNats_le hLimit (length_ofNat_le hCheck hFits hInverse)

/-- A document holds numbers far longer than those of a container. -/
theorem read?_write {k : Rsa.Numbers} {qinv limit : Nat} (hCheck : Rsa.check k = .ok ())
    (hFits : k.Fits limit) (hLimit : 9 * (limit + 7) ≤ Der.maxLength) (hInverse : qinv < k.p) :
    read? (write k qinv) = some k := by
  have hShort : limit < Der.maxLength := by omega
  have hLength := length_numbers_le hCheck hFits hShort hInverse
  have hNat {n : Nat} (h : n ∈ [0, k.n, k.e, k.d, k.p, k.q, k.dp, k.dq, qinv]) :
      Yields Der.nat (Der.putNat n) n :=
    Der.yields_nat ((length_ofNat_le hCheck hFits hInverse n h).trans_lt hShort)
  have hNumbers : Der.whole numbers (write k qinv) = some k := by
    refine (yields_sequence (hLength.trans hLimit) ?_).whole
    simp only [List.map_cons, List.map_nil, List.flatten_cons, List.flatten_nil]
    rw [Der.whole, bind_of_some (Der.yields_natWithin_one (by decide) _),
      bind_of_some (guard_of rfl), bind_of_some (hNat (by simp) _),
      bind_of_some (hNat (by simp) _), bind_of_some (hNat (by simp) _),
      bind_of_some (hNat (by simp) _), bind_of_some (hNat (by simp) _),
      bind_of_some (hNat (by simp) _), bind_of_some (hNat (by simp) _),
      bind_of_some (hNat (by simp) _)]
    rfl
  simp only [read?, hNumbers, hCheck, Except.toBool, Option.bind_eq_bind, Option.bind_some, guard,
    if_true, Option.pure_def]

theorem length_write_le {k : Rsa.Numbers} {qinv : Nat} (hCheck : Rsa.check k = .ok ())
    (hFits : k.Fits KeyReader.maxLength) (hInverse : qinv < k.p) :
    (write k qinv).length ≤ 10000006 := by
  have hMax : 9 * (KeyReader.maxLength + 7) ≤ 10000000 := by decide
  have hLength := (length_numbers_le hCheck hFits (by decide) hInverse).trans hMax
  have hPut := Der.length_put_le Der.sequenceTag (hLength.trans (by decide))
  exact hPut.trans (Nat.add_le_add_right hLength 6)

end Pkcs1

/-! ## Scalars -/

namespace NistCurve

theorem exists_publicPoint (c : NistCurve) (d : Nat) :
    ∃ coordinates, c.publicPoint d = 4 :: coordinates ∧
      coordinates.length = 2 * c.fieldSize := by
  refine ⟨Bytes.ofNat c.fieldSize (c.multiple d).1 ++ Bytes.ofNat c.fieldSize (c.multiple d).2,
    rfl, ?_⟩
  rw [List.length_append, Bytes.length_ofNat, Bytes.length_ofNat]
  omega

theorem length_publicPoint (c : NistCurve) (d : Nat) :
    (c.publicPoint d).length = 2 * c.fieldSize + 1 := by
  obtain ⟨coordinates, hPoint, hLength⟩ := c.exists_publicPoint d
  rw [hPoint, List.length_cons, hLength]

theorem fieldSize_bounds (c : NistCurve) : Sec1.minScalar ≤ c.fieldSize ∧ c.fieldSize ≤ 66 := by
  cases c <;> decide

theorem order_le (c : NistCurve) : c.order ≤ 256 ^ c.fieldSize := by
  cases c <;> decide

end NistCurve

namespace Sec1

theorem length_elements_le (curve : NistCurve) (d : Nat) :
    [Der.putNat 1, Der.putOctets (Bytes.ofNat curve.fieldSize d),
      Der.put (Der.explicitTag 1) (Der.put Der.bitStringTag
        (Der.bits (curve.publicPoint d)))].flatten.length ≤ 300 := by
  have hField := curve.fieldSize_bounds.2
  have hMax : Der.maxLength = 268435455 := rfl
  have hOctets := Der.length_put_le Der.octetStringTag
    (c := Bytes.ofNat curve.fieldSize d) (by rw [Bytes.length_ofNat]; omega)
  have hBits : (Der.bits (curve.publicPoint d)).length = 2 * curve.fieldSize + 2 := by
    rw [Der.bits, List.length_cons, NistCurve.length_publicPoint]
  have hBitString := Der.length_put_le Der.bitStringTag
    (c := Der.bits (curve.publicPoint d)) (by omega)
  have hPoint := Der.length_put_le (Der.explicitTag 1)
    (c := Der.put Der.bitStringTag (Der.bits (curve.publicPoint d))) (by omega)
  have hVersion : (Der.putNat 1).length = 3 := by decide
  rw [Bytes.length_ofNat] at hOctets
  simp only [List.flatten_cons, List.flatten_nil, List.length_append, List.length_nil,
    Der.putOctets]
  omega

theorem length_write_le (curve : NistCurve) (d : Nat) : (write curve d).length ≤ 306 := by
  have hLength := length_elements_le curve d
  have hPut := Der.length_put_le Der.sequenceTag (hLength.trans (by decide))
  exact hPut.trans (Nat.add_le_add_right hLength 6)

theorem read?_write (curve : NistCurve) (d : Nat) :
    read? (write curve d) =
      some ⟨Bytes.ofNat curve.fieldSize d, some (curve.publicPoint d)⟩ := by
  have hField := curve.fieldSize_bounds.2
  have hMax : Der.maxLength = 268435455 := rfl
  have hBits : (Der.bits (curve.publicPoint d)).length = 2 * curve.fieldSize + 2 := by
    rw [Der.bits, List.length_cons, NistCurve.length_publicPoint]
  have hPut := Der.length_put_le Der.bitStringTag
    (c := Der.bits (curve.publicPoint d)) (by omega)
  have hPoint : Der.explicitField 1 (Der.content Der.bitStringTag)
      (Der.put (Der.explicitTag 1) (Der.put Der.bitStringTag (Der.bits (curve.publicPoint d)))) =
      some (some (Der.bits (curve.publicPoint d)), []) := by
    refine Der.field_of_eq (by decide) (by decide) (by decide) ?_
    have hOuterTag : Der.isTag (Der.explicitTag 1) = true := by decide
    have hOuter := Der.yields_content hOuterTag
      (c := Der.put Der.bitStringTag (Der.bits (curve.publicPoint d))) (by omega) []
    rw [List.append_nil] at hOuter
    have hInnerTag : Der.isTag Der.bitStringTag = true := by decide
    have hInner := Der.yields_content hInnerTag (c := Der.bits (curve.publicPoint d)) (by omega)
    exact (bind_of_some hOuter).trans (lift_of_some hInner.whole)
  have hParameters (rest : Bytes) : Der.explicitField 0 Der.objectId
      (Der.put (Der.explicitTag 1) rest) = some (none, Der.put (Der.explicitTag 1) rest) :=
    Der.field_of_ne (by decide) (by decide) (by decide)
  have hOctets := Der.yields_octets (c := Bytes.ofNat curve.fieldSize d)
    (by rw [Bytes.length_ofNat]; omega)
  have hWhole : wholeBits? (some (Der.bits (curve.publicPoint d))) =
      some (some (curve.publicPoint d)) := rfl
  refine (yields_sequence ((length_elements_le curve d).trans (by decide)) ?_).whole
  simp only [List.flatten_cons, List.flatten_nil, List.append_nil]
  rw [Der.whole, bind_of_some (Der.yields_natWithin_one (by decide) _),
    bind_of_some (guard_of rfl), bind_of_some (hOctets _), bind_of_some (hParameters _),
    bind_of_some hPoint, bind_of_some (lift_of_some hWhole)]
  rfl

variable {s : Sec1} {c : NistCurve} {d : Nat}

/-- What a curve asks of a document: a scalar of no more than its width and in its range, and
its public point, if there is any, in one of the two forms. -/
structure Fits (s : Sec1) (c : NistCurve) : Prop where
  minScalar_le : minScalar ≤ s.scalar.length
  length_le : s.scalar.length ≤ c.fieldSize
  isScalar : c.IsScalar (Bytes.toNat s.scalar)
  point : ∀ p ∈ s.point, p = c.publicPoint (Bytes.toNat s.scalar) ∨
    p = c.compressedPoint (Bytes.toNat s.scalar)

theorem scalarOn?_eq_some_iff :
    s.scalarOn? c = some d ↔ s.Fits c ∧ d = Bytes.toNat s.scalar := by
  simp only [scalarOn?, Option.bind_eq_bind, Option.bind_eq_some_iff, Option.guard_eq_some']
  constructor
  · rintro ⟨_, ⟨hMin, hLength⟩, _, hScalar, h⟩
    split at h
    · next hNone =>
      cases h
      exact ⟨⟨hMin, hLength, hScalar, fun p hp => by rw [hNone] at hp; cases hp⟩, rfl⟩
    · next point hSome =>
      obtain ⟨_, hPoint, h⟩ := Option.bind_eq_some_iff.1 h
      cases h
      refine ⟨⟨hMin, hLength, hScalar, fun p hp => ?_⟩, rfl⟩
      rw [hSome] at hp
      cases hp
      exact (Option.guard_eq_some' _).1 hPoint
  · rintro ⟨hFits, rfl⟩
    refine ⟨(), ⟨hFits.minScalar_le, hFits.length_le⟩, (), hFits.isScalar, ?_⟩
    split
    · rfl
    · next point hSome =>
      exact Option.bind_eq_some_iff.2
        ⟨(), (Option.guard_eq_some' _).2 (hFits.point point hSome), rfl⟩

theorem scalarOn?_eq_none_iff : s.scalarOn? c = none ↔ ¬s.Fits c := by
  rw [Option.eq_none_iff_forall_ne_some]
  exact ⟨fun h hFits => h _ (scalarOn?_eq_some_iff.2 ⟨hFits, rfl⟩),
    fun h _ hSome => h (scalarOn?_eq_some_iff.1 hSome).1⟩

theorem toNat_scalar (h : c.IsScalar d) : Bytes.toNat (Bytes.ofNat c.fieldSize d) = d :=
  Bytes.toNat_ofNat (h.2.trans_le c.order_le)

theorem fits_of_isScalar (h : c.IsScalar d) {point : Option Bytes}
    (hPoint : ∀ p ∈ point, p = c.publicPoint d) : Fits ⟨Bytes.ofNat c.fieldSize d, point⟩ c := by
  have hValue := toNat_scalar h
  have hLength : (Bytes.ofNat c.fieldSize d).length = c.fieldSize := Bytes.length_ofNat ..
  refine ⟨?_, hLength.le, ?_, fun p hp => .inl ?_⟩
  · rw [hLength]
    exact c.fieldSize_bounds.1
  · rwa [hValue]
  · rw [hPoint p hp, hValue]

/-- A scalar with its own public point is accepted on its own curve. -/
theorem scalarOn?_self (h : c.IsScalar d) :
    scalarOn? ⟨Bytes.ofNat c.fieldSize d, some (c.publicPoint d)⟩ c = some d :=
  scalarOn?_eq_some_iff.2
    ⟨fits_of_isScalar h fun _ hp => (Option.some_inj.1 hp).symm, (toNat_scalar h).symm⟩

/-- On a curve of smaller width, a scalar is refused for its length. -/
theorem scalarOn?_of_lt (h : c.fieldSize < s.scalar.length) : s.scalarOn? c = none :=
  scalarOn?_eq_none_iff.2 fun hFits => absurd hFits.length_le (Nat.not_le.2 h)

end Sec1

namespace KeyPair

/-- The curves are tried in the order of their widths. -/
theorem ofScalarOn?_eq_some {scalar? : NistCurve → Option Nat} {curve : NistCurve} {d : Nat}
    (hSelf : scalar? curve = some d)
    (hBefore : ∀ c : NistCurve, c.fieldSize < curve.fieldSize → scalar? c = none) :
    ofScalarOn? scalar? = some (ofScalar curve d) := by
  rw [ofScalarOn?, NistCurve.all]
  cases curve with
  | p256 => rw [List.findSome?_cons, hSelf, Option.map_some]
  | p384 =>
    have hFirst : scalar? .p256 = none := hBefore .p256 (by decide)
    rw [List.findSome?_cons, hFirst, Option.map_none, List.findSome?_cons, hSelf, Option.map_some]
  | p521 =>
    have hFirst : scalar? .p256 = none := hBefore .p256 (by decide)
    have hSecond : scalar? .p384 = none := hBefore .p384 (by decide)
    rw [List.findSome?_cons, hFirst, Option.map_none, List.findSome?_cons, hSecond,
      Option.map_none, List.findSome?_cons, hSelf, Option.map_some]

/-- **The first curve that accepts a scalar is the one it was written for.** -/
theorem ofScalarOn?_eq {curve : NistCurve} {d : Nat} (h : curve.IsScalar d) :
    ofScalarOn? (Sec1.scalarOn?
      ⟨Bytes.ofNat curve.fieldSize d, some (curve.publicPoint d)⟩) = some (ofScalar curve d) := by
  refine ofScalarOn?_eq_some (Sec1.scalarOn?_self h) fun c hLt => ?_
  exact Sec1.scalarOn?_of_lt (by rwa [Bytes.length_ofNat])

end KeyPair

/-! ## Keys of any algorithm -/

theorem Ed25519.length_publicKey (seed : Bytes) : (publicKey seed).length = 32 := by
  rw [publicKey, Point.encode, Bytes.ofNatLE, List.length_reverse, Bytes.length_ofNat]

namespace Pkcs8

variable {a : Bytes} {algorithm : Der.AlgorithmId} {key : Bytes}

/-- Version zero: no public key follows. -/
theorem read?_zero (ha : Yields Der.algorithmId a algorithm) (hLength : a.length ≤ 100)
    (hKey : key.length ≤ 10000006) :
    read? (Der.putSequence [Der.putNat 0, a, Der.putOctets key]) =
      some ⟨algorithm, key, none⟩ := by
  have hMax : Der.maxLength = 268435455 := rfl
  have hVersion : (Der.putNat 0).length = 3 := by decide
  have hOctets := Der.length_put_le Der.octetStringTag (c := key) (by omega)
  have hKeyRun := Der.yields_octets (c := key) (by omega) []
  rw [List.append_nil] at hKeyRun
  have hBits : Sec1.wholeBits? none = some none := rfl
  refine (yields_sequence ?_ ?_).whole
  · simp only [List.flatten_cons, List.flatten_nil, List.length_append, List.length_nil,
      Der.putOctets]
    omega
  · simp only [List.flatten_cons, List.flatten_nil, List.append_nil]
    rw [Der.whole, bind_of_some (Der.yields_natWithin_one (by decide) _),
      bind_of_some (guard_of (by decide)), bind_of_some (ha _), bind_of_some hKeyRun,
      bind_of_some (Der.field_nil ..), bind_of_some (lift_of_some hBits),
      bind_of_some (guard_of (by decide)), bind_of_some (a := []) (t := []) rfl]
    rfl

/-- Version one: the public key follows. -/
theorem read?_one {point : Bytes} (ha : Yields Der.algorithmId a algorithm)
    (hLength : a.length ≤ 100) (hKey : key.length ≤ 100) (hPoint : point.length ≤ 100) :
    read? (Der.putSequence [Der.putNat 1, a, Der.putOctets key,
      Der.put (Der.implicitTag 1) (Der.bits point)]) = some ⟨algorithm, key, some point⟩ := by
  have hMax : Der.maxLength = 268435455 := rfl
  have hVersion : (Der.putNat 1).length = 3 := by decide
  have hBitsLength : (Der.bits point).length = point.length + 1 := rfl
  have hOctets := Der.length_put_le Der.octetStringTag (c := key) (by omega)
  have hField := Der.length_put_le (Der.implicitTag 1) (c := Der.bits point) (by omega)
  have hPointRun : Der.field 1 (Der.content (Der.implicitTag 1))
      (Der.put (Der.implicitTag 1) (Der.bits point)) = some (some (Der.bits point), []) := by
    have hTag : Der.isTag (Der.implicitTag 1) = true := by decide
    have hContent := Der.yields_content hTag (c := Der.bits point) (by omega) []
    rw [List.append_nil] at hContent
    exact Der.field_of_eq (by decide) (by decide) (by decide) hContent
  have hBits : Sec1.wholeBits? (some (Der.bits point)) = some (some point) := rfl
  refine (yields_sequence ?_ ?_).whole
  · simp only [List.flatten_cons, List.flatten_nil, List.length_append, List.length_nil,
      Der.putOctets]
    omega
  · simp only [List.flatten_cons, List.flatten_nil, List.append_nil]
    rw [Der.whole, bind_of_some (Der.yields_natWithin_one (by decide) _),
      bind_of_some (guard_of (by decide)), bind_of_some (ha _),
      bind_of_some (Der.yields_octets (by omega) _), bind_of_some hPointRun,
      bind_of_some (lift_of_some hBits), bind_of_some (guard_of (by simp)),
      bind_of_some (a := []) (t := []) rfl]
    rfl

/-- A document of EC is none of RSA. -/
theorem rsa?_ec (parameters : Option (UInt8 × Bytes)) (key : Bytes) (point : Option Bytes) :
    rsa? ⟨⟨ObjectId.ec, parameters⟩, key, point⟩ = none := by
  rw [rsa?, if_neg]
  intro hEq
  injection hEq with hEq
  exact absurd hEq (by decide)

theorem scalar?_self {curve : NistCurve} {key : Bytes} {point : Option Bytes} {s : Sec1}
    (hRead : Sec1.read? key = some s) :
    scalar? ⟨⟨ObjectId.ec, some (Der.objectIdTag, ObjectId.curve curve)⟩, key, point⟩ curve =
      s.scalarOn? curve := by
  rw [scalar?, if_pos rfl, hRead]
  rfl

theorem objectId_curve_inj {curve c : NistCurve} (h : ObjectId.curve curve = ObjectId.curve c) :
    curve = c := by
  revert h
  cases curve <;> cases c <;> decide

/-- A document names one curve. -/
theorem scalar?_of_ne {curve c : NistCurve} (hNe : curve ≠ c) {key : Bytes} {point : Option Bytes} :
    scalar? ⟨⟨ObjectId.ec, some (Der.objectIdTag, ObjectId.curve curve)⟩, key, point⟩ c =
      none := by
  rw [scalar?, if_neg]
  intro hEq
  injection hEq with _ hEq
  injection hEq with hEq
  injection hEq with _ hEq
  exact hNe (objectId_curve_inj hEq)

end Pkcs8

/-! ## Key pairs -/

namespace KeyPair

theorem seed?_octets {seed point : Bytes} (h : seed.length = 32)
    (hPoint : point = Ed25519.publicKey seed) :
    Pkcs8.seed? ⟨⟨ObjectId.ed25519, none⟩, 0x04 :: 0x20 :: seed, some point⟩ = some seed := by
  have hAll : (some point).all (· = Ed25519.publicKey seed) = true := by
    rw [Option.all_some, hPoint, decide_eq_true rfl]
  rw [Pkcs8.seed?]
  simp only [h, hAll, and_self, if_true]

theorem ofPkcs8_ofSeed {seed : Bytes} (h : seed.length = 32) :
    ∃ document, Pkcs8.read? (Pkcs8.ofSeed seed) = some document ∧
      ofPkcs8 document = .ok (ofSeed seed) := by
  have hOctets : Der.putOctets seed = 0x04 :: 0x20 :: seed := by
    rw [Der.putOctets, Der.put, h]
    rfl
  have hLength : (Der.putOctets seed).length = 34 := by
    rw [hOctets, List.length_cons, List.length_cons, h]
  have hPoint : (Ed25519.publicKey seed).length ≤ 100 := by
    rw [Ed25519.length_publicKey]
    decide
  have hName : Der.isObjectId ObjectId.ed25519 = true := by decide
  refine ⟨_, Pkcs8.read?_one (Der.yields_algorithmId_name hName) (by decide) (by omega) hPoint, ?_⟩
  rw [ofPkcs8, hOctets, seed?_octets h rfl]

/-- A private key that begins like a sequence is none of Ed25519. -/
theorem seed?_put (algorithm : Der.AlgorithmId) (c : Bytes) (publicKey : Option Bytes) :
    Pkcs8.seed? ⟨algorithm, Der.put Der.sequenceTag c, publicKey⟩ = none := by
  have hTag : Der.sequenceTag ≠ 0x04 := by decide
  rw [Pkcs8.seed?, Der.put]
  split
  · next hEq => exact absurd (List.cons.inj hEq).1 hTag
  · rfl

theorem ofPkcs8_ofRsa {k : Rsa.Numbers} {qinv : Nat} (hCheck : Rsa.check k = .ok ())
    (hFits : k.Fits KeyReader.maxLength) (hInverse : qinv < k.p) :
    ∃ document, Pkcs8.read? (Pkcs8.ofRsa k qinv) = some document ∧
      ofPkcs8 document = ofRsa k := by
  have hName : Der.isObjectId ObjectId.rsa = true := by decide
  have hTag : Der.isTag Der.nullTag = true := by decide
  have hParameters : ([] : Bytes).length ≤ 39 := by decide
  refine ⟨_, Pkcs8.read?_zero (Der.yields_algorithmId hName hTag (by omega)) (by decide)
    (Pkcs1.length_write_le hCheck hFits hInverse), ?_⟩
  have hRsa : Pkcs8.rsa? ⟨⟨ObjectId.rsa, some (Der.nullTag, [])⟩, Pkcs1.write k qinv, none⟩ =
      some k := by
    rw [Pkcs8.rsa?, if_pos rfl]
    exact Pkcs1.read?_write hCheck hFits (by decide) hInverse
  rw [ofPkcs8, hRsa, Pkcs1.write, Der.putSequence, seed?_put]

theorem ofPkcs8_ofScalar {curve : NistCurve} {d : Nat} (h : curve.IsScalar d) :
    ∃ document, Pkcs8.read? (Pkcs8.ofScalar curve d) = some document ∧
      ofPkcs8 document = .ok (ofScalar curve d) := by
  have hEc : Der.isObjectId ObjectId.ec = true := by decide
  have hTag : Der.isTag Der.objectIdTag = true := by decide
  have hNameLength : (ObjectId.curve curve).length ≤ 39 := by
    cases curve <;> decide
  have hAlgorithm : (Der.putSequence [Der.putObjectId ObjectId.ec,
      Der.putObjectId (ObjectId.curve curve)]).length ≤ 100 := by
    cases curve <;> decide
  refine ⟨_, Pkcs8.read?_zero (Der.yields_algorithmId hEc hTag (by omega)) hAlgorithm
    ((Sec1.length_write_le curve d).trans (by decide)), ?_⟩
  have hSelf : Pkcs8.scalar? ⟨⟨ObjectId.ec, some (Der.objectIdTag, ObjectId.curve curve)⟩,
      Sec1.write curve d, none⟩ curve = some d := by
    rw [Pkcs8.scalar?_self (Sec1.read?_write curve d), Sec1.scalarOn?_self h]
  have hFound := ofScalarOn?_eq_some hSelf fun c hLt =>
    Pkcs8.scalar?_of_ne fun hEq => absurd hLt (by rw [hEq]; exact Nat.lt_irrefl _)
  rw [ofPkcs8, Pkcs8.rsa?_ec, Sec1.write, Der.putSequence, seed?_put, ← Der.putSequence,
    ← Sec1.write, hFound]

end KeyPair

end SshKeys
