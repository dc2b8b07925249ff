import SshKeys.Key.Pair
import SshKeys.Proofs.Buffer
import SshKeys.Proofs.KeyReader

/-!
# Keys read back

A key that a reader can give is `Valid`, and a valid key is read back from its
binary form.

* `publicKey_eq_ok`, `keyPair_eq_ok`: what the readers of keys give is valid.
* `yields_publicKey`, `yields_keyPair`: **the binary form of a valid key reads
  as that key**.
* `stable_publicKey`, `stable_keyPair`: which key is read depends only on the
  bytes it takes.
* `KeyPair.write_eq`: the room computed for the binary form is what it takes.
-/

namespace SshKeys

/-! ## Names -/

/-- The name of the algorithm is one that keys may carry, and it stands for the algorithm. -/
def Algorithm.IsNamed (a : Algorithm) : Prop :=
  ofName? a.name = some a ∧ a.name.utf8ByteSize ≤ KeyReader.maxName

theorem Algorithm.isNamed {a : Algorithm} (h : ∀ n, a ≠ other n) : a.IsNamed := by
  have hKnown : ∀ a ∈ known, ofName? a.name = some a ∧ a.name.utf8ByteSize ≤ KeyReader.maxName := by
    decide
  refine hKnown a ?_
  match a with
  | other n => exact absurd rfl (h n)
  | ecdsa .p256 | ecdsa .p384 | ecdsa .p521 => simp [known]
  | dsa | ed25519 | rsa | rsaSha256 | rsaSha512 | skEcdsa | skEd25519 => simp [known]

theorem NistCurve.ofName?_name (c : NistCurve) : ofName? c.name = some c := by
  cases c <;> decide

theorem NistCurve.name_le (c : NistCurve) : c.name.utf8ByteSize ≤ KeyReader.maxName := by
  cases c <;> decide

theorem NistCurve.fieldSize_le (c : NistCurve) : c.fieldSize ≤ 66 := by
  cases c <;> decide

theorem Algorithm.name_other {s n : String} (h : ofName? s = some (other n)) : n = s := by
  rw [ofName?] at h
  cases hKnown : known.find? (·.name = s) with
  | some a =>
    rw [hKnown] at h
    have hMem := List.mem_of_find?_eq_some hKnown
    cases h
    simp [known] at hMem
  | none =>
    rw [hKnown] at h
    simp only at h
    split at h
    · cases h
      rfl
    · cases h

/-! ## Keys that can be read -/

namespace PublicKey

open KeyReader (IsInteger maxLength curveOfPoint isP256Form)

/-- A public key that a reader can give. -/
def Valid : PublicKey → Prop
  | rsa e n => IsInteger e ∧ IsInteger n
  | dsa p q g y => IsInteger p ∧ IsInteger q ∧ IsInteger g ∧ IsInteger y
  | ecdsa curve point => curveOfPoint point = .ok curve ∧ point.length ≤ 133
  | ed25519 key => key.length = 32
  | skEcdsa point application =>
    isP256Form point = true ∧ point.length ≤ 65 ∧ application.utf8ByteSize ≤ maxLength
  | skEd25519 key application => key.length = 32 ∧ application.utf8ByteSize ≤ maxLength
  | other name body => (Algorithm.other name).IsNamed ∧ body.length ≤ maxLength

theorem Valid.isNamed {k : PublicKey} (h : k.Valid) : k.algorithm.IsNamed := by
  cases k with
  | other name body => exact h.1
  | _ => exact Algorithm.isNamed fun _ => Algorithm.noConfusion

/-- No field of a key is long, so neither is the whole. -/
theorem Valid.length_blob_lt {k : PublicKey} (h : k.Valid) : k.blob.length < 2 ^ 32 := by
  have hName : k.algorithm.name.utf8ByteSize ≤ 48 := h.isNamed.2
  have hMax : maxLength = 1048575 := rfl
  have hCurve (c : NistCurve) : c.name.utf8ByteSize ≤ 48 := c.name_le
  have hP256 := hCurve .p256
  rw [blob, List.length_append, Field.length_putText, Field.stringLength]
  cases k with
  | rsa e n =>
    obtain ⟨⟨-, he⟩, ⟨-, hn⟩⟩ := h
    simp only [fields, List.length_append, Field.length_putString, Field.stringLength]
    omega
  | dsa p q g y =>
    obtain ⟨⟨-, hp⟩, ⟨-, hq⟩, ⟨-, hg⟩, ⟨-, hy⟩⟩ := h
    simp only [fields, List.length_append, Field.length_putString, Field.stringLength]
    omega
  | ecdsa curve point =>
    obtain ⟨-, hPoint⟩ := h
    have hOwn := hCurve curve
    simp only [fields, List.length_append, Field.length_putString, Field.length_putText,
      Field.stringLength]
    omega
  | ed25519 key =>
    replace h : key.length = 32 := h
    simp only [fields, Field.length_putString, Field.stringLength]
    omega
  | skEcdsa point application =>
    obtain ⟨-, hPoint, hText⟩ := h
    simp only [fields, List.length_append, Field.length_putString, Field.length_putText,
      Field.stringLength]
    omega
  | skEd25519 key application =>
    obtain ⟨hKey, hText⟩ := h
    simp only [fields, List.length_append, Field.length_putString, Field.length_putText,
      Field.stringLength]
    omega
  | other name body =>
    obtain ⟨-, hBody⟩ := h
    simp only [fields, Field.length_putString, Field.stringLength]
    omega

end PublicKey

namespace KeyPair

open KeyReader (IsInteger maxLength)

/-- What a security token keeps outside itself has the size of a field. -/
def TokenValid (t : TokenPart) : Prop :=
  t.handle.length ≤ maxLength ∧ t.reserved.length ≤ maxLength

/-- The private part of a key that a reader can give. -/
def SecretValid : KeyPair → Prop
  | rsa k => IsInteger k.d ∧ IsInteger k.iqmp ∧ IsInteger k.p ∧ IsInteger k.q
  | dsa k => IsInteger k.x
  | ecdsa curve _ scalar => scalar.length = curve.fieldSize
  | ed25519 key seed => seed.length = 32 ∧ Ed25519.publicKey seed = key
  | skEcdsa _ _ token => TokenValid token
  | skEd25519 _ _ token => TokenValid token
  | other _ _ secret => secret.length ≤ maxLength

/-- A key pair that a reader can give. -/
structure Valid (k : KeyPair) : Prop where
  publicKey : k.publicKey.Valid
  secret : k.SecretValid

end KeyPair

namespace KeyReader

open StateExcept (bind_eq_ok_iff refuse_eq_ok_iff accept_eq_ok_iff lift_eq_ok_iff)

variable {i j : KeyInput}

theorem nested_take_eq_ok {n : Nat} {b : Bytes} (h : nested (take n) i = .ok (b, j)) :
    b.length = n := by
  obtain ⟨m, k, l, -, hr, -⟩ := nested_eq_ok_iff.1 h
  exact length_of_take hr

theorem ecdsaPoint_eq_ok {curve : NistCurve} {point : Bytes}
    (h : ecdsaPoint i = .ok ((curve, point), j)) :
    curveOfPoint point = .ok curve ∧ point.length ≤ 133 := by
  obtain ⟨c, k₁, -, h⟩ := bind_eq_ok_iff.1 h
  obtain ⟨b, k₂, hPoint, h⟩ := bind_eq_ok_iff.1 h
  obtain ⟨own, k₃, hOwn, h⟩ := bind_eq_ok_iff.1 h
  obtain ⟨hEq, h⟩ := accept_eq_ok_iff.1 h
  cases h
  rw [← hEq]
  exact ⟨(lift_eq_ok_iff.1 hOwn).1, (fieldWithin_eq_ok hPoint).1⟩

theorem skEcdsaPoint_eq_ok {point : Bytes} {application : String}
    (h : skEcdsaPoint i = .ok ((point, application), j)) :
    isP256Form point = true ∧ point.length ≤ 65 ∧ application.utf8ByteSize ≤ maxLength := by
  obtain ⟨c, k₁, -, h⟩ := bind_eq_ok_iff.1 h
  obtain ⟨-, h⟩ := refuse_eq_ok_iff.1 h
  obtain ⟨b, k₂, hPoint, h⟩ := bind_eq_ok_iff.1 h
  obtain ⟨hForm, h⟩ := accept_eq_ok_iff.1 h
  obtain ⟨s, k₃, hText, h⟩ := bind_eq_ok_iff.1 h
  cases h
  exact ⟨hForm, (fieldWithin_eq_ok hPoint).1, text_eq_ok hText⟩

theorem scalar_eq_ok {curve : NistCurve} {d : Bytes} (h : scalar curve i = .ok (d, j)) :
    d.length = curve.fieldSize := by
  obtain ⟨n, k, l, -, h, -⟩ := nested_eq_ok_iff.1 h
  obtain ⟨m, k', -, h⟩ := bind_eq_ok_iff.1 h
  simp only at h
  split at h
  · obtain ⟨x, k'', -, h⟩ := bind_eq_ok_iff.1 h
    obtain ⟨-, h⟩ := refuse_eq_ok_iff.1 h
    exact length_of_take h
  · exact length_of_take h

theorem seed_eq_ok {key s : Bytes} (h : seed key i = .ok (s, j)) :
    s.length = 32 ∧ Ed25519.publicKey s = key := by
  obtain ⟨n, k, l, -, h, -⟩ := nested_eq_ok_iff.1 h
  obtain ⟨b, k', hTake, h⟩ := bind_eq_ok_iff.1 h
  obtain ⟨hOwn, h⟩ := refuse_eq_ok_iff.1 h
  obtain ⟨hKey, h⟩ := refuse_eq_ok_iff.1 h
  cases h
  have hLength := length_of_take hTake
  exact ⟨by rw [List.length_take]; omega, (not_not.1 hOwn).trans (not_not.1 hKey)⟩

theorem tokenPart_eq_ok {t : TokenPart} (h : tokenPart i = .ok (t, j)) : KeyPair.TokenValid t := by
  obtain ⟨flags, k₁, -, h⟩ := bind_eq_ok_iff.1 h
  obtain ⟨handle, k₂, hHandle, h⟩ := bind_eq_ok_iff.1 h
  obtain ⟨reserved, k₃, hReserved, h⟩ := bind_eq_ok_iff.1 h
  cases h
  exact ⟨field_eq_ok hHandle, field_eq_ok hReserved⟩

theorem publicKeyOf_eq_ok {a : Algorithm} {key : PublicKey} (ha : a.IsNamed)
    (h : publicKeyOf a i = .ok (key, j)) : key.Valid := by
  cases a with
  | rsa | rsaSha256 | rsaSha512 =>
    obtain ⟨e, k₁, he, h⟩ := bind_eq_ok_iff.1 h
    obtain ⟨n, k₂, hn, h⟩ := bind_eq_ok_iff.1 h
    cases h
    exact ⟨integer_eq_ok he, integer_eq_ok hn⟩
  | dsa =>
    obtain ⟨p, k₁, hp, h⟩ := bind_eq_ok_iff.1 h
    obtain ⟨q, k₂, hq, h⟩ := bind_eq_ok_iff.1 h
    obtain ⟨g, k₃, hg, h⟩ := bind_eq_ok_iff.1 h
    obtain ⟨y, k₄, hy, h⟩ := bind_eq_ok_iff.1 h
    cases h
    exact ⟨integer_eq_ok hp, integer_eq_ok hq, integer_eq_ok hg, integer_eq_ok hy⟩
  | ecdsa curve =>
    obtain ⟨⟨own, point⟩, k₁, hPoint, h⟩ := bind_eq_ok_iff.1 h
    obtain ⟨hOwn, h⟩ := accept_eq_ok_iff.1 h
    cases h
    subst hOwn
    exact ecdsaPoint_eq_ok hPoint
  | ed25519 =>
    obtain ⟨key, k₁, hKey, h⟩ := bind_eq_ok_iff.1 h
    cases h
    exact nested_take_eq_ok hKey
  | skEcdsa =>
    obtain ⟨⟨point, application⟩, k₁, hPoint, h⟩ := bind_eq_ok_iff.1 h
    cases h
    exact skEcdsaPoint_eq_ok hPoint
  | skEd25519 =>
    obtain ⟨key, k₁, hKey, h⟩ := bind_eq_ok_iff.1 h
    obtain ⟨application, k₂, hText, h⟩ := bind_eq_ok_iff.1 h
    cases h
    exact ⟨nested_take_eq_ok hKey, text_eq_ok hText⟩
  | other name =>
    obtain ⟨body, k₁, hBody, h⟩ := bind_eq_ok_iff.1 h
    cases h
    exact ⟨ha, field_eq_ok hBody⟩

theorem keyPairOf_eq_ok {a : Algorithm} {pair : KeyPair} (ha : a.IsNamed)
    (h : keyPairOf a i = .ok (pair, j)) : pair.Valid := by
  cases a with
  | rsa | rsaSha256 | rsaSha512 =>
    obtain ⟨n, k₁, hn, h⟩ := bind_eq_ok_iff.1 h
    obtain ⟨e, k₂, he, h⟩ := bind_eq_ok_iff.1 h
    obtain ⟨d, k₃, hd, h⟩ := bind_eq_ok_iff.1 h
    obtain ⟨iqmp, k₄, hiqmp, h⟩ := bind_eq_ok_iff.1 h
    obtain ⟨p, k₅, hp, h⟩ := bind_eq_ok_iff.1 h
    obtain ⟨q, k₆, hq, h⟩ := bind_eq_ok_iff.1 h
    cases h
    exact ⟨⟨integer_eq_ok he, integer_eq_ok hn⟩,
      ⟨integer_eq_ok hd, integer_eq_ok hiqmp, integer_eq_ok hp, integer_eq_ok hq⟩⟩
  | dsa =>
    obtain ⟨p, k₁, hp, h⟩ := bind_eq_ok_iff.1 h
    obtain ⟨q, k₂, hq, h⟩ := bind_eq_ok_iff.1 h
    obtain ⟨g, k₃, hg, h⟩ := bind_eq_ok_iff.1 h
    obtain ⟨y, k₄, hy, h⟩ := bind_eq_ok_iff.1 h
    obtain ⟨x, k₅, hx, h⟩ := bind_eq_ok_iff.1 h
    cases h
    exact ⟨⟨integer_eq_ok hp, integer_eq_ok hq, integer_eq_ok hg, integer_eq_ok hy⟩,
      integer_eq_ok hx⟩
  | ecdsa curve =>
    obtain ⟨⟨own, point⟩, k₁, hPoint, h⟩ := bind_eq_ok_iff.1 h
    obtain ⟨d, k₂, hScalar, h⟩ := bind_eq_ok_iff.1 h
    obtain ⟨hOwn, h⟩ := accept_eq_ok_iff.1 h
    cases h
    subst hOwn
    exact ⟨ecdsaPoint_eq_ok hPoint, scalar_eq_ok hScalar⟩
  | ed25519 =>
    obtain ⟨key, k₁, hKey, h⟩ := bind_eq_ok_iff.1 h
    obtain ⟨s, k₂, hSeed, h⟩ := bind_eq_ok_iff.1 h
    cases h
    exact ⟨nested_take_eq_ok hKey, seed_eq_ok hSeed⟩
  | skEcdsa =>
    obtain ⟨⟨point, application⟩, k₁, hPoint, h⟩ := bind_eq_ok_iff.1 h
    obtain ⟨token, k₂, hToken, h⟩ := bind_eq_ok_iff.1 h
    cases h
    exact ⟨skEcdsaPoint_eq_ok hPoint, tokenPart_eq_ok hToken⟩
  | skEd25519 =>
    obtain ⟨key, k₁, hKey, h⟩ := bind_eq_ok_iff.1 h
    obtain ⟨application, k₂, hText, h⟩ := bind_eq_ok_iff.1 h
    obtain ⟨token, k₃, hToken, h⟩ := bind_eq_ok_iff.1 h
    cases h
    exact ⟨⟨nested_take_eq_ok hKey, text_eq_ok hText⟩, tokenPart_eq_ok hToken⟩
  | other name =>
    obtain ⟨body, k₁, hBody, h⟩ := bind_eq_ok_iff.1 h
    obtain ⟨secret, k₂, hSecret, h⟩ := bind_eq_ok_iff.1 h
    cases h
    exact ⟨⟨ha, field_eq_ok hBody⟩, field_eq_ok hSecret⟩

theorem isNamed_of_name {a : Algorithm} (h : name Algorithm.ofName? i = .ok (a, j)) :
    a.IsNamed := by
  obtain ⟨s, hs, hLength⟩ := name_eq_ok h
  cases a with
  | other n =>
    obtain rfl := Algorithm.name_other hs
    exact ⟨hs, hLength⟩
  | _ => exact Algorithm.isNamed fun _ => Algorithm.noConfusion

/-- **What is read is valid.** -/
theorem publicKey_eq_ok {key : PublicKey} (h : publicKey i = .ok (key, j)) : key.Valid := by
  obtain ⟨a, k, ha, h⟩ := bind_eq_ok_iff.1 h
  exact publicKeyOf_eq_ok (isNamed_of_name ha) h

theorem keyPair_eq_ok {pair : KeyPair} (h : keyPair i = .ok (pair, j)) : pair.Valid := by
  obtain ⟨a, k, ha, h⟩ := bind_eq_ok_iff.1 h
  exact keyPairOf_eq_ok (isNamed_of_name ha) h

/-! ## What is taken is all that counts -/

theorem stable_nested_take {inside : Bool} (n : Nat) : Stable inside (nested (take n)) :=
  (stable_take n).nested

theorem stable_ecdsaPoint {inside : Bool} : Stable inside ecdsaPoint :=
  (stable_name _).bind fun _ => (stable_fieldWithin _).bind fun _ =>
    (stable_lift _).bind fun _ => stable_accept (stable_pure _)

theorem stable_skEcdsaPoint {inside : Bool} : Stable inside skEcdsaPoint :=
  (stable_name _).bind fun _ => stable_refuse <| (stable_fieldWithin _).bind fun _ =>
    stable_accept <| stable_text.bind fun _ => stable_pure _

theorem stable_scalar {inside : Bool} (curve : NistCurve) : Stable inside (scalar curve) := by
  refine (stable_remaining.bind fun n => ?_).nested
  by_cases h : n = curve.fieldSize + 1
  · rw [if_pos h]
    exact stable_byte.bind fun _ => stable_refuse (stable_take _)
  · rw [if_neg h]
    exact stable_take _

theorem stable_seed {inside : Bool} (key : Bytes) : Stable inside (seed key) := by
  refine ((stable_take _).bind fun _ => stable_refuse ?_).nested
  exact stable_refuse (stable_pure _)

theorem stable_tokenPart {inside : Bool} : Stable inside tokenPart :=
  stable_byte.bind fun _ => stable_field.bind fun _ => stable_field.bind fun _ => stable_pure _

theorem stable_publicKeyOf {inside : Bool} (a : Algorithm) : Stable inside (publicKeyOf a) := by
  cases a with
  | rsa | rsaSha256 | rsaSha512 =>
    exact stable_integer.bind fun _ => stable_integer.bind fun _ => stable_pure _
  | dsa =>
    exact stable_integer.bind fun _ => stable_integer.bind fun _ => stable_integer.bind fun _ =>
      stable_integer.bind fun _ => stable_pure _
  | ecdsa curve => exact stable_ecdsaPoint.bind fun _ => stable_accept (stable_pure _)
  | ed25519 => exact (stable_nested_take _).bind fun _ => stable_pure _
  | skEcdsa => exact stable_skEcdsaPoint.bind fun _ => stable_pure _
  | skEd25519 =>
    exact (stable_nested_take _).bind fun _ => stable_text.bind fun _ => stable_pure _
  | other name => exact stable_field.bind fun _ => stable_pure _

theorem stable_publicKey {inside : Bool} : Stable inside publicKey :=
  (stable_name _).bind stable_publicKeyOf

theorem stable_keyPairOf {inside : Bool} (a : Algorithm) : Stable inside (keyPairOf a) := by
  cases a with
  | rsa | rsaSha256 | rsaSha512 =>
    exact stable_integer.bind fun _ => stable_integer.bind fun _ => stable_integer.bind fun _ =>
      stable_integer.bind fun _ => stable_integer.bind fun _ => stable_integer.bind fun _ =>
        stable_pure _
  | dsa =>
    exact stable_integer.bind fun _ => stable_integer.bind fun _ => stable_integer.bind fun _ =>
      stable_integer.bind fun _ => stable_integer.bind fun _ => stable_pure _
  | ecdsa curve =>
    exact stable_ecdsaPoint.bind fun _ => (stable_scalar _).bind fun _ =>
      stable_accept (stable_pure _)
  | ed25519 =>
    exact (stable_nested_take _).bind fun _ => (stable_seed _).bind fun _ => stable_pure _
  | skEcdsa =>
    exact stable_skEcdsaPoint.bind fun _ => stable_tokenPart.bind fun _ => stable_pure _
  | skEd25519 =>
    exact (stable_nested_take _).bind fun _ => stable_text.bind fun _ =>
      stable_tokenPart.bind fun _ => stable_pure _
  | other name =>
    exact stable_field.bind fun _ => stable_field.bind fun _ => stable_pure _

theorem stable_keyPair {inside : Bool} : Stable inside keyPair :=
  (stable_name _).bind stable_keyPairOf

theorem framed_keyPair {inside : Bool} : Framed inside keyPair :=
  stable_keyPair.framed

/-! ## What a valid key is written as -/

open SshKeys.Field (putString putText)

theorem yields_nested_take {n : Nat} {b : Bytes} (h : b.length = n) (hMax : n ≤ maxLength) :
    Yields (nested (take n)) (putString b) b :=
  (yields_take h).fills.nested (h.trans_le hMax)

theorem yields_ecdsaPoint {curve : NistCurve} {point : Bytes}
    (h : curveOfPoint point = .ok curve) (hLength : point.length ≤ 133) :
    Yields ecdsaPoint (putText curve.name ++ putString point) (curve, point) := by
  have hMax : 133 ≤ maxLength := by decide
  refine (yields_name (NistCurve.ofName?_name curve) curve.name_le).bind
    ((yields_fieldWithin hLength (hLength.trans hMax)).check ?_)
  rw [h]
  exact (yields_pure curve).check (yields_accept rfl (yields_pure _))

theorem yields_skEcdsaPoint {point : Bytes} {application : String} (h : isP256Form point = true)
    (hLength : point.length ≤ 65) (hText : application.utf8ByteSize ≤ maxLength) :
    Yields skEcdsaPoint (putText NistCurve.p256.name ++ (putString point ++ putText application))
      (point, application) := by
  have hMax : 65 ≤ maxLength := by decide
  exact (yields_name (NistCurve.ofName?_name .p256) (NistCurve.name_le .p256)).bind
    (yields_refuse (by decide) ((yields_fieldWithin hLength (hLength.trans hMax)).bind
      (yields_accept h ((yields_text hText).map fun s => (point, s)))))

/-- The zero in front of a scalar with a high first bit is what the reader expects there. -/
theorem yields_scalar {curve : NistCurve} {d : Bytes} (h : d.length = curve.fieldSize) :
    Yields (scalar curve) (putString (KeyPair.scalarField d)) d := by
  have hSize := curve.fieldSize_le
  have hMax : 67 ≤ maxLength := by decide
  by_cases hHigh : 0x80 ≤ d.headD 0
  · have hField : KeyPair.scalarField d = 0 :: d := if_pos hHigh
    have hLength : (0 :: d).length = curve.fieldSize + 1 := by rw [List.length_cons, h]
    rw [hField]
    refine (fills_remaining ?_).nested (by omega)
    rw [if_pos hLength]
    exact (yields_byte 0).bind (yields_refuse (not_not.2 rfl) (yields_take h))
  · have hField : KeyPair.scalarField d = d := if_neg hHigh
    rw [hField]
    refine (fills_remaining ?_).nested (by omega)
    rw [if_neg (by omega)]
    exact yields_take h

theorem yields_seed {key s : Bytes} (hKey : key.length = 32) (hSeed : s.length = 32)
    (h : Ed25519.publicKey s = key) : Yields (seed key) (putString (s ++ key)) s := by
  have hMax : 64 ≤ maxLength := by decide
  have hLength : (s ++ key).length = 64 := by rw [List.length_append, hKey, hSeed]
  have hTake : (s ++ key).take 32 = s := List.take_left' hSeed
  have hDrop : (s ++ key).drop 32 = key := List.drop_left' hSeed
  have hPure : Yields (pure ((s ++ key).take 32)) [] s := by
    rw [hTake]
    exact yields_pure s
  refine (Yields.fills ?_).nested (by omega)
  refine (yields_take hLength).check (yields_refuse (not_not.2 ?_) ?_)
  · rw [hTake, hDrop, h]
  · exact yields_refuse (not_not.2 hDrop) hPure

theorem yields_tokenPart {t : TokenPart} (h : KeyPair.TokenValid t) :
    Yields tokenPart (KeyPair.tokenFields t) t :=
  (yields_byte t.flags).bind ((yields_field h.1).bind ((yields_field h.2).map (TokenPart.mk _ _)))

/-- **A valid public key reads as itself.** -/
theorem yields_publicKey {k : PublicKey} (h : k.Valid) : Yields publicKey k.blob k := by
  refine (yields_name h.isNamed.1 h.isNamed.2).bind ?_
  cases k with
  | rsa e n =>
    obtain ⟨he, hn⟩ := h
    exact (yields_integer he).bind ((yields_integer hn).map _)
  | dsa p q g y =>
    obtain ⟨hp, hq, hg, hy⟩ := h
    simp only [PublicKey.fields, List.append_assoc]
    exact (yields_integer hp).bind ((yields_integer hq).bind ((yields_integer hg).bind
      ((yields_integer hy).map _)))
  | ecdsa curve point =>
    obtain ⟨hPoint, hLength⟩ := h
    exact (yields_ecdsaPoint hPoint hLength).check (yields_accept rfl (yields_pure _))
  | ed25519 key => exact (yields_nested_take h (by decide)).map _
  | skEcdsa point application =>
    obtain ⟨hForm, hLength, hText⟩ := h
    simp only [PublicKey.fields, List.append_assoc]
    exact (yields_skEcdsaPoint hForm hLength hText).check (yields_pure _)
  | skEd25519 key application =>
    obtain ⟨hKey, hText⟩ := h
    exact (yields_nested_take hKey (by decide)).bind ((yields_text hText).map _)
  | other name body =>
    obtain ⟨-, hBody⟩ := h
    exact (yields_field hBody).map _

/-- An RSA key whose modulus is longer than a field is refused for that. -/
theorem refuses_publicKey_rsa {e n : Bytes} (he : IsInteger e) (hLong : maxLength < n.length)
    (h : n.length < 2 ^ 32) : Refuses publicKey (PublicKey.rsa e n).blob .overflow := by
  have hNamed : Algorithm.rsa.IsNamed := Algorithm.isNamed fun _ => Algorithm.noConfusion
  refine (yields_name hNamed.1 hNamed.2).refuses ?_
  exact (yields_integer he).refuses (refuses_integer hLong h).bind

/-- **A valid key pair reads as itself.** -/
theorem yields_keyPair {k : KeyPair} (h : k.Valid) : Yields keyPair k.blob k := by
  have hNamed : k.algorithm.IsNamed := h.publicKey.isNamed
  obtain ⟨hPublic, hSecret⟩ := h
  refine (yields_name hNamed.1 hNamed.2).bind ?_
  cases k with
  | rsa k =>
    obtain ⟨he, hn⟩ := hPublic
    obtain ⟨hd, hiqmp, hp, hq⟩ := hSecret
    simp only [KeyPair.fields, List.append_assoc]
    exact (yields_integer hn).bind ((yields_integer he).bind ((yields_integer hd).bind
      ((yields_integer hiqmp).bind ((yields_integer hp).bind ((yields_integer hq).map _)))))
  | dsa k =>
    obtain ⟨hp, hq, hg, hy⟩ := hPublic
    simp only [KeyPair.fields, List.append_assoc]
    exact (yields_integer hp).bind ((yields_integer hq).bind ((yields_integer hg).bind
      ((yields_integer hy).bind ((yields_integer hSecret).map _))))
  | ecdsa curve point scalar =>
    obtain ⟨hPoint, hLength⟩ := hPublic
    exact (yields_ecdsaPoint hPoint hLength).bind ((yields_scalar hSecret).check
      (yields_accept rfl (yields_pure _)))
  | ed25519 key seed =>
    obtain ⟨hSeed, hKey⟩ := hSecret
    exact (yields_nested_take hPublic (by decide)).bind ((yields_seed hPublic hSeed hKey).map _)
  | skEcdsa point application token =>
    obtain ⟨hForm, hLength, hText⟩ := hPublic
    simp only [KeyPair.fields, List.append_assoc]
    rw [← List.append_assoc (putString point), ← List.append_assoc (putText _)]
    exact (yields_skEcdsaPoint hForm hLength hText).bind ((yields_tokenPart hSecret).map _)
  | skEd25519 key application token =>
    obtain ⟨hKey, hText⟩ := hPublic
    simp only [KeyPair.fields, List.append_assoc]
    exact (yields_nested_take hKey (by decide)).bind ((yields_text hText).bind
      ((yields_tokenPart hSecret).map _))
  | other name body secret =>
    obtain ⟨-, hBody⟩ := hPublic
    exact (yields_field hBody).bind ((yields_field hSecret).map _)

end KeyReader

/-! ## Whole blobs -/

theorem KeyReader.run_of_yields {α : Type} {r : KeyReader α} {b : Bytes} {a : α}
    (h : Yields r b a) (rest : Bytes) :
    r.run (.ofBytes (b ++ rest)) = .ok (a, .ofBytes rest) := by
  have hRun := h (.ofBytes (b ++ rest)) rest (.inl rfl) rfl fun l hl => nomatch hl
  rw [KeyInput.skip, KeyInput.ofBytes, List.drop_left] at hRun
  exact hRun

theorem PublicKey.read_blob {k : PublicKey} (h : k.Valid) (rest : Bytes) :
    read (k.blob ++ rest) = .ok (k, rest) := by
  rw [read, KeyReader.run_of_yields (KeyReader.yields_publicKey h)]
  rfl

theorem PublicKey.read_blob_self {k : PublicKey} (h : k.Valid) : read k.blob = .ok (k, []) := by
  have hRead := read_blob h []
  rwa [List.append_nil] at hRead

theorem PublicKey.read_eq_ok {b rest : Bytes} {k : PublicKey} (h : read b = .ok (k, rest)) :
    ∃ i, KeyReader.publicKey (.ofBytes b) = .ok (k, i) ∧ i.bytes = rest := by
  obtain ⟨⟨k', i⟩, hRun, hPure⟩ := Result.bind_eq_ok_iff.1 h
  cases hPure
  exact ⟨i, hRun, rfl⟩

theorem PublicKey.ofBlob_of_read {b rest : Bytes} {k : PublicKey} (h : read b = .ok (k, rest)) :
    ofBlob b = .ok k := by
  rw [ofBlob, h]
  rfl

theorem PublicKey.ofBlob_blob {k : PublicKey} (h : k.Valid) : ofBlob k.blob = .ok k :=
  ofBlob_of_read (read_blob_self h)

theorem PublicKey.valid_of_ofBlob {b : Bytes} {k : PublicKey} (h : ofBlob b = .ok k) :
    k.Valid := by
  obtain ⟨⟨k', rest⟩, hRead, hPure⟩ := Result.bind_eq_ok_iff.1 h
  cases hPure
  obtain ⟨i, hRun, -⟩ := read_eq_ok hRead
  exact KeyReader.publicKey_eq_ok hRun

theorem PublicKey.ofBlob_of_long {e n : Bytes} (he : KeyReader.IsInteger e)
    (hLong : KeyReader.maxLength < n.length) (h : n.length < 2 ^ 32) :
    ofBlob (rsa e n).blob = .error .overflow := by
  have hRun : KeyReader.publicKey (.ofBytes (rsa e n).blob) = .error .overflow :=
    KeyReader.refuses_publicKey_rsa he hLong h _ [] (.inl rfl) (List.append_nil _).symm
      fun l hl => nomatch hl
  rw [ofBlob, read, StateT.run, hRun]
  rfl

theorem KeyPair.read_blob {k : KeyPair} (h : k.Valid) (rest : Bytes) :
    read (k.blob ++ rest) = .ok (k, rest) := by
  rw [read, KeyReader.run_of_yields (KeyReader.yields_keyPair h)]
  rfl

theorem KeyPair.read_blob_self {k : KeyPair} (h : k.Valid) : read k.blob = .ok (k, []) := by
  have hRead := read_blob h []
  rwa [List.append_nil] at hRead

theorem KeyPair.read_eq_ok {b rest : Bytes} {k : KeyPair} (h : read b = .ok (k, rest)) :
    ∃ i, KeyReader.keyPair (.ofBytes b) = .ok (k, i) ∧ i.bytes = rest := by
  rw [read] at h
  cases hRun : KeyReader.keyPair.run (.ofBytes b) with
  | error e =>
    rw [hRun] at h
    cases h
  | ok p =>
    obtain ⟨k', i⟩ := p
    rw [hRun] at h
    cases h
    exact ⟨i, hRun, rfl⟩

theorem KeyPair.valid_of_read {b rest : Bytes} {k : KeyPair} (h : read b = .ok (k, rest)) :
    k.Valid := by
  obtain ⟨i, hRun, -⟩ := read_eq_ok h
  exact KeyReader.keyPair_eq_ok hRun

/-- **A key pair is read from the bytes it takes, whatever stands behind them.** -/
theorem KeyPair.read_eq_ok_iff {b rest : Bytes} {k : KeyPair} :
    read b = .ok (k, rest) ↔ ∃ kb, b = kb ++ rest ∧ read kb = .ok (k, []) := by
  -- An input in memory with no open strings is the one `read` starts from.
  have hMemory (c d : Bytes) : (KeyInput.ofBytes c).inMemory d = .ofBytes d := rfl
  have hFramed {c rest : Bytes} (h : read c = .ok (k, rest)) :
      ∃ kb, c = kb ++ rest ∧ ∀ more, read (kb ++ more) = .ok (k, more) := by
    obtain ⟨i, hRun, rfl⟩ := read_eq_ok h
    obtain ⟨kb, hSplit, -, hAll⟩ :=
      (KeyReader.framed_keyPair : KeyReader.Framed false _) _ _ _ (fun h => nomatch h) hRun
    refine ⟨kb, hSplit, fun more => ?_⟩
    have hMore := hAll more
    rw [hMemory] at hMore
    rw [read, StateT.run, hMore]
    rfl
  constructor
  · intro h
    obtain ⟨kb, hSplit, hAll⟩ := hFramed h
    have hOwn := hAll []
    rw [List.append_nil] at hOwn
    exact ⟨kb, hSplit, hOwn⟩
  · rintro ⟨kb, rfl, h⟩
    obtain ⟨kb', hSplit, hAll⟩ := hFramed h
    rw [List.append_nil] at hSplit
    rw [hSplit]
    exact hAll rest

theorem KeyReader.bytes_of_keyPair {j : KeyInput} {b : Bytes} {k : KeyPair}
    (h : keyPair (.ofBytes b) = .ok (k, j)) :
    ∃ kb, b = kb ++ j.bytes ∧ KeyPair.read kb = .ok (k, []) ∧ j = .ofBytes j.bytes := by
  have hRead : KeyPair.read b = .ok (k, j.bytes) := by
    rw [KeyPair.read, StateT.run, h]
    rfl
  obtain ⟨kb, hBytes, hOwn⟩ := KeyPair.read_eq_ok_iff.1 hRead
  have hStable : Stable false keyPair := stable_keyPair
  obtain ⟨used, -, hSkip, -⟩ := hStable _ j k (fun h => nomatch h) h
  exact ⟨kb, hBytes, hOwn, KeyInput.ofBytes_of_skip hSkip⟩

/-! ## Lengths -/

namespace KeyPair

theorem length_scalarField (d : Bytes) : (scalarField d).length = scalarFieldLength d := by
  rw [scalarField, scalarFieldLength]
  split
  · rw [List.length_cons, Nat.add_comm]
  · rw [Nat.zero_add]

theorem length_tokenFields (t : TokenPart) : (tokenFields t).length = tokenFieldsLength t := by
  rw [tokenFields, tokenFieldsLength, List.cons_append, List.length_cons, List.length_append,
    Field.length_putString, Field.length_putString]
  omega

theorem length_fields (k : KeyPair) : k.fields.length = k.fieldsLength := by
  cases k with
  | rsa k | dsa k | other name body secret =>
    simp only [fields, fieldsLength, List.length_append, Field.length_putString]
  | ecdsa curve point d =>
    simp only [fields, fieldsLength, List.length_append, Field.length_putString,
      Field.length_putText, length_scalarField]
  | ed25519 key seed =>
    simp only [fields, fieldsLength, List.length_append, Field.length_putString]
  | skEcdsa point application token | skEd25519 key application token =>
    simp only [fields, fieldsLength, List.length_append, Field.length_putString,
      Field.length_putText, length_tokenFields]

/-- The length that is computed for the binary form is the one it has. -/
theorem length_blob (k : KeyPair) : k.blob.length = k.blobLength := by
  rw [blob, List.length_append, Field.length_putText, length_fields, blobLength]

/-- What is written is the binary form, in a buffer with room for nothing else. -/
theorem write_eq (k : KeyPair) : k.write = .full k.blob := by
  refine Buffer.writeAll_eq_full k.length_blob ?_
  rw [List.flatten_cons, List.flatten_cons, List.flatten_nil, List.append_nil]
  rfl

theorem written_write (k : KeyPair) : k.write.written = k.blob := by
  rw [write_eq, Buffer.written_full]

end KeyPair

end SshKeys
