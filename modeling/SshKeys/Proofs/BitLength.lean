import Mathlib.Data.Nat.Digits.Lemmas
import SshKeys.Key.Info
import SshKeys.Proofs.Integer
import SshKeys.Proofs.KeyMaterial

/-!
# The size of a key in bits

The size that is reported of an RSA or DSA key is taken from the first byte of an
integer and from the number of bytes behind it.  For the integers of a key that was
read it is the number of binary digits of the value, since no byte in front of the
first digit is superfluous.

* `Integer.signed`: the value of the bytes in two's complement.
* `Integer.value?_eq_some_iff`: the integers that are positive, and their value.
* `PublicKey.bitLength_of_read`: **the size reported is the number of binary digits**.
-/

namespace SshKeys

namespace Integer

open KeyReader (isCanonical)

/-- The value in two's complement, most significant byte first; no bytes are zero. -/
def signed (b : Bytes) : Int :=
  (BitVec.ofNat (8 * b.length) (Bytes.toNat b)).toInt

/-- The highest bit of the first byte is the sign. -/
theorem signed_cons (x : UInt8) (c : Bytes) :
    signed (x :: c) =
      if x < 0x80 then (Bytes.toNat (x :: c) : Int)
      else (Bytes.toNat (x :: c) : Int) - (256 ^ (c.length + 1) : Nat) := by
  have hPow : 2 ^ (8 * (x :: c).length) = 256 ^ c.length * 256 := by
    rw [Nat.pow_mul, List.length_cons]
    exact Nat.pow_succ ..
  have hLt : Bytes.toNat (x :: c) < 2 ^ (8 * (x :: c).length) := by
    rw [hPow]
    exact Bytes.toNat_lt (x :: c)
  have hRest := Bytes.toNat_lt c
  have hSign : 2 * Bytes.toNat (x :: c) < 2 ^ (8 * (x :: c).length) ↔ x < 0x80 := by
    rw [hPow, Bytes.toNat_cons, UInt8.lt_iff_toNat_lt]
    change _ ↔ x.toNat < 128
    constructor
    · intro h
      by_contra hHigh
      have hMul := Nat.mul_le_mul_right (256 ^ c.length) (Nat.not_lt.1 hHigh)
      omega
    · intro h
      have hMul := Nat.mul_le_mul_right (256 ^ c.length) (Nat.succ_le_of_lt h)
      rw [Nat.succ_mul] at hMul
      omega
  rw [signed, BitVec.toInt_eq_toNat_cond, BitVec.toNat_ofNat, Nat.mod_eq_of_lt hLt, hPow,
    Nat.pow_succ]
  rw [hPow] at hSign
  by_cases hLow : x < 0x80
  · rw [if_pos hLow, if_pos (hSign.2 hLow)]
  · rw [if_neg hLow, if_neg (hSign.not.2 hLow)]

example : signed [0xff, 0x01] = -255 := by decide

/-- The integers that have a value are those whose first byte does not show a negative sign. -/
theorem value?_eq_some_iff {b : Bytes} {n : Nat} :
    value? b = some n ↔ b ≠ [] ∧ signed b = n := by
  cases b with
  | nil =>
    constructor
    · intro h
      cases h
    · intro h
      exact absurd rfl h.1
  | cons x c =>
    have hLt : Bytes.toNat (x :: c) < 256 ^ (c.length + 1) := Bytes.toNat_lt (x :: c)
    have hDigits : value? (x :: c) = if x < 0x80 then some (Bytes.toNat (x :: c)) else none := by
      rw [value?, digits?.eq_def]
      split
      · next hNil => cases hNil
      · next hEq =>
        obtain ⟨rfl, rfl⟩ := List.cons.inj hEq
        rw [Option.map_some, if_pos (by decide), Bytes.toNat_cons]
        simp
      · next hEq =>
        obtain ⟨rfl, rfl⟩ := List.cons.inj hEq
        split
        · rw [Option.map_some]
        · rfl
    rw [hDigits, signed_cons]
    split
    · simp
    · simp only [reduceCtorEq, ne_eq, not_false_eq_true, true_and, false_iff]
      omega

/-- A canonical integer has a value only if that is positive: zero is written in no bytes. -/
theorem value?_pos {b : Bytes} {n : Nat} (hCanonical : isCanonical b = true)
    (h : value? b = some n) : 0 < n := by
  rcases Nat.eq_zero_or_pos n with rfl | hPos
  · rw [← ofNat_of_value? hCanonical h] at h
    cases h
  · exact hPos

/-- **The bits of a canonical integer are the binary digits of its value.** -/
theorem bits_eq_length_digits {b : Bytes} (hCanonical : isCanonical b = true) :
    bits b = (Nat.digits 2 (signed b).toNat).length := by
  cases hValue : value? b with
  | none =>
    have hNone : digits? b = none := by
      cases hDigits : digits? b with
      | none => rfl
      | some d =>
        rw [value?, hDigits] at hValue
        cases hValue
    -- Without a value the integer is not positive, and so has no digits to count.
    have hSigned : (signed b).toNat = 0 := by
      by_contra hPos
      have hSome : value? b = some (signed b).toNat := by
        refine value?_eq_some_iff.2 ⟨?_, by omega⟩
        rintro rfl
        exact hPos rfl
      rw [hValue] at hSome
      cases hSome
    rw [bits, hNone, hSigned, Nat.digits_zero]
    rfl
  | some n =>
    have hPos := value?_pos hCanonical hValue
    have hSigned : signed b = n := (value?_eq_some_iff.1 hValue).2
    rw [hSigned, Int.toNat_natCast, Nat.length_digits 2 n (by decide) hPos.ne',
      ← Nat.log2_eq_log_two, ← bits_ofNat hPos, ofNat_of_value? hCanonical hValue]

end Integer

namespace PublicKey

/-- The integer that the size of a key is taken from: the modulus, or the prime. -/
def sizeInteger? : PublicKey → Option Bytes
  | rsa _ n => some n
  | dsa p _ _ _ => some p
  | _ => none

theorem bitLength_of_sizeInteger {k : PublicKey} {m : Bytes} (h : k.sizeInteger? = some m) :
    k.bitLength = .ok (Integer.bits m) := by
  cases k with
  | rsa e n =>
    cases h
    rfl
  | dsa p q g y =>
    cases h
    rfl
  | _ => cases h

theorem Valid.isInteger_of_sizeInteger {k : PublicKey} {m : Bytes} (hValid : k.Valid)
    (h : k.sizeInteger? = some m) : KeyReader.IsInteger m := by
  cases k with
  | rsa e n =>
    cases h
    exact hValid.2
  | dsa p q g y =>
    cases h
    exact hValid.1
  | _ => cases h

/-- **The size reported of an RSA or DSA key that was read is the number of binary digits of its
modulus or prime**, and zero if that is not positive. -/
theorem bitLength_of_read {b rest m : Bytes} {k : PublicKey} (h : read b = .ok (k, rest))
    (hInteger : k.sizeInteger? = some m) :
    k.bitLength = .ok (Nat.digits 2 (Integer.signed m).toNat).length ∧
      (0 < Integer.signed m → k.bitLength = .ok (1 + Nat.log 2 (Integer.signed m).toNat)) ∧
      (Integer.signed m ≤ 0 → k.bitLength = .ok 0) := by
  have hValid : k.Valid := valid_of_ofBlob (ofBlob_of_read h)
  have hCanonical := (hValid.isInteger_of_sizeInteger hInteger).1
  have hBits : k.bitLength = .ok (Nat.digits 2 (Integer.signed m).toNat).length := by
    rw [bitLength_of_sizeInteger hInteger, Integer.bits_eq_length_digits hCanonical]
  refine ⟨hBits, fun hPos => ?_, fun hNotPos => ?_⟩
  · rw [hBits, Nat.length_digits 2 _ (by decide) (by omega), Nat.add_comm]
  · rw [hBits, Int.toNat_of_nonpos hNotPos, Nat.digits_zero]
    rfl

/-- A modulus of two bytes, the first of which only shows the sign. -/
theorem bitLength_of_read_eight :
    read (rsa [3] [0, 0xff]).blob = .ok (rsa [3] [0, 0xff], []) ∧
      (rsa [3] [0, 0xff]).sizeInteger? = some [0, 0xff] ∧ 0 < Integer.signed [0, 0xff] ∧
      (rsa [3] [0, 0xff]).bitLength = .ok (1 + Nat.log 2 255) := by
  have hRead : read (rsa [3] [0, 0xff]).blob = .ok (rsa [3] [0, 0xff], []) :=
    read_blob_self ⟨⟨by decide, by decide⟩, ⟨by decide, by decide⟩⟩
  have hPos : 0 < Integer.signed [0, 0xff] := by decide
  exact ⟨hRead, rfl, hPos, (bitLength_of_read hRead rfl).2.1 hPos⟩

end PublicKey

end SshKeys
