import SshKeys.Key.Integer
import SshKeys.Key.Reader
import SshKeys.Proofs.Bytes

/-!
# Numbers in as few bytes as possible

A natural number and its shortest form determine each other.  `value?_ofNat` and
`ofNat_of_value?` say this for the integers of a key, `length_ofNat_mono` that a
smaller number is never written longer, and `bits_ofNat` and `length_ofNat_le_iff`
how many binary digits it has.
-/

namespace SshKeys

/-! ## Digits -/

namespace Bytes

theorem lt_widthOf (n : Nat) : n < 256 ^ widthOf n := by
  rw [widthOf]
  split
  · next h =>
    rw [h]
    decide
  · have hPow : 256 ^ (n.log2 / 8 + 1) = 2 ^ (8 * (n.log2 / 8 + 1)) := by
      rw [Nat.pow_mul]
    rw [hPow]
    exact Nat.lt_log2_self.trans_le (Nat.pow_le_pow_right (by decide) (by omega))

theorem widthOf_le {n w : Nat} (h : n < 256 ^ w) : widthOf n ≤ w := by
  rw [widthOf]
  split
  · exact Nat.zero_le w
  · next hn =>
    have hPow : 256 ^ w = 2 ^ (8 * w) := by
      rw [Nat.pow_mul]
    rw [hPow] at h
    have hLog : n.log2 < 8 * w := (Nat.log2_lt hn).2 h
    omega

theorem toNat_ofNatShort (n : Nat) : toNat (ofNatShort n) = n :=
  toNat_ofNat (lt_widthOf n)

theorem ofNatShort_toNat {b : Bytes} (h : b.head? ≠ some 0) : ofNatShort (toNat b) = b := by
  have hWidth : widthOf (toNat b) = b.length := by
    refine le_antisymm (widthOf_le (toNat_lt b)) ?_
    cases b with
    | nil => exact Nat.zero_le _
    | cons x c =>
      have hx : 1 ≤ x.toNat := by
        refine Nat.one_le_iff_ne_zero.2 fun h0 => h ?_
        have hZero : x = 0 := UInt8.toNat_inj.1 h0
        rw [List.head?_cons, hZero]
      have hLow : 256 ^ c.length ≤ toNat (x :: c) := by
        rw [toNat_cons]
        exact Nat.le_add_right_of_le (Nat.le_mul_of_pos_left _ hx)
      have hPow := hLow.trans_lt (lt_widthOf (toNat (x :: c)))
      exact (Nat.pow_lt_pow_iff_right (by decide)).1 hPow
  rw [ofNatShort, hWidth, ofNat_toNat]

theorem head?_ofNatShort (n : Nat) : (ofNatShort n).head? ≠ some 0 := by
  intro h
  obtain ⟨c, hc⟩ : ∃ c, ofNatShort n = 0 :: c := by
    cases hShort : ofNatShort n with
    | nil =>
      rw [hShort] at h
      cases h
    | cons x c =>
      rw [hShort] at h
      exact ⟨c, by rw [Option.some.inj h]⟩
  have hValue := toNat_ofNatShort n
  rw [hc, toNat_cons] at hValue
  have hLength : (ofNatShort n).length = widthOf n := length_ofNat ..
  rw [hc, List.length_cons] at hLength
  have hWidth := widthOf_le (n := n) (w := c.length) (by
    have := toNat_lt c
    rw [← hValue]
    simpa using this)
  omega

/-- A positive number has a first digit. -/
theorem exists_ofNatShort {n : Nat} (h : 0 < n) :
    ∃ x c, ofNatShort n = x :: c ∧ x ≠ 0 ∧ n = x.toNat * 256 ^ c.length + toNat c := by
  cases hShort : ofNatShort n with
  | nil =>
    have hValue := toNat_ofNatShort n
    rw [hShort, toNat_nil] at hValue
    omega
  | cons x c =>
    refine ⟨x, c, rfl, fun hx => head?_ofNatShort n ?_, ?_⟩
    · rw [hShort, hx, List.head?_cons]
    · rw [← toNat_cons, ← hShort, toNat_ofNatShort]

end Bytes

/-! ## Integers of a key -/

namespace Integer

open KeyReader (isCanonical)

/-- The two forms of a positive integer, by its first digit. -/
theorem exists_ofNat {n : Nat} (h : 0 < n) :
    ∃ x c, x ≠ 0 ∧ n = x.toNat * 256 ^ c.length + Bytes.toNat c ∧
      (x < 0x80 ∧ ofNat n = x :: c ∨ 0x80 ≤ x ∧ ofNat n = 0 :: x :: c) := by
  obtain ⟨x, c, hShort, hx, hValue⟩ := Bytes.exists_ofNatShort h
  refine ⟨x, c, hx, hValue, ?_⟩
  by_cases hLow : x < 0x80
  · refine .inl ⟨hLow, ?_⟩
    rw [ofNat, hShort]
    exact if_pos hLow
  · refine .inr ⟨UInt8.not_lt.1 hLow, ?_⟩
    rw [ofNat, hShort]
    exact if_neg hLow

theorem isCanonical_ofNat (n : Nat) : isCanonical (ofNat n) = true := by
  rcases Nat.eq_zero_or_pos n with rfl | hn
  · decide
  · obtain ⟨x, c, hx, -, ⟨-, hForm⟩ | ⟨hHigh, hForm⟩⟩ := exists_ofNat hn
    · rw [hForm, KeyReader.isCanonical.eq_def]
      split
      · next hEq => exact absurd (List.cons.inj hEq).1 hx
      · next hEq => exact absurd (List.cons.inj hEq).1 hx
      · rfl
    · rw [hForm]
      exact decide_eq_true hHigh

/-- The digits of a positive integer are those of its value. -/
theorem exists_digits?_ofNat {n : Nat} (h : 0 < n) :
    ∃ x c, digits? (ofNat n) = some (x :: c) ∧ x ≠ 0 ∧
      n = x.toNat * 256 ^ c.length + Bytes.toNat c := by
  obtain ⟨x, c, hx, hValue, ⟨hLow, hForm⟩ | ⟨-, hForm⟩⟩ := exists_ofNat h
  · refine ⟨x, c, ?_, hx, hValue⟩
    rw [hForm, digits?.eq_def]
    split
    · next hEq => cases hEq
    · next hEq => exact absurd (List.cons.inj hEq).1 hx
    · next hEq =>
      cases hEq
      exact if_pos hLow
  · refine ⟨x, c, ?_, hx, hValue⟩
    rw [hForm, digits?]

theorem value?_ofNat {n : Nat} (h : 0 < n) : value? (ofNat n) = some n := by
  obtain ⟨x, c, hDigits, -, hValue⟩ := exists_digits?_ofNat h
  rw [value?, hDigits, Option.map_some, Bytes.toNat_cons, ← hValue]

/-- The one form of a positive integer. -/
theorem ofNat_of_value? {b : Bytes} {n : Nat} (hCanonical : isCanonical b = true)
    (h : value? b = some n) : ofNat n = b := by
  rw [value?, digits?.eq_def] at h
  split at h
  · cases h
  · next rest =>
    cases h
    cases rest with
    | nil => cases hCanonical
    | cons x c =>
      have hHigh : 0x80 ≤ x := of_decide_eq_true hCanonical
      have hHead : (x :: c).head? ≠ some 0 := by
        intro h0
        rw [Option.some.inj h0] at hHigh
        cases hHigh
      rw [ofNat, Bytes.ofNatShort_toNat hHead]
      exact if_neg (UInt8.not_lt.2 hHigh)
  · next x c hZero =>
    split at h
    · next hLow =>
      cases h
      have hHead : (x :: c).head? ≠ some 0 := fun h0 => hZero (Option.some.inj h0)
      rw [ofNat, Bytes.ofNatShort_toNat hHead]
      exact if_pos hLow
    · cases h

/-! ## Lengths -/

theorem lt_of_length_ofNat (n : Nat) : n < 128 * 256 ^ ((ofNat n).length - 1) := by
  rcases Nat.eq_zero_or_pos n with rfl | hn
  · decide
  · obtain ⟨x, c, -, hValue, ⟨hLow, hForm⟩ | ⟨-, hForm⟩⟩ := exists_ofNat hn
    · have hx : x.toNat + 1 ≤ 128 := UInt8.lt_iff_toNat_lt.1 hLow
      have hMul := Nat.mul_le_mul_right (256 ^ c.length) hx
      have hc := Bytes.toNat_lt c
      rw [hForm, List.length_cons, Nat.add_sub_cancel]
      rw [Nat.add_mul] at hMul
      omega
    · have hx : x.toNat + 1 ≤ 256 := x.toNat_lt
      have hMul := Nat.mul_le_mul_right (256 ^ c.length) hx
      have hc := Bytes.toNat_lt c
      rw [hForm, List.length_cons, List.length_cons, Nat.add_sub_cancel, Nat.pow_succ]
      rw [Nat.add_mul] at hMul
      omega

theorem length_ofNat_le {n w : Nat} (h : n < 128 * 256 ^ w) : (ofNat n).length ≤ w + 1 := by
  rcases Nat.eq_zero_or_pos n with rfl | hn
  · exact Nat.zero_le _
  · obtain ⟨x, c, hx, hValue, ⟨-, hForm⟩ | ⟨hHigh, hForm⟩⟩ := exists_ofNat hn
    · have hPos : 1 ≤ x.toNat :=
        Nat.one_le_iff_ne_zero.2 fun h0 => hx (UInt8.toNat_inj.1 h0)
      have hMul := Nat.mul_le_mul_right (256 ^ c.length) hPos
      have hPow : 256 ^ c.length < 256 ^ (w + 1) := by
        rw [Nat.pow_succ]
        omega
      have hLength := (Nat.pow_lt_pow_iff_right (by decide)).1 hPow
      rw [hForm, List.length_cons]
      omega
    · have hTop : 128 ≤ x.toNat := UInt8.le_iff_toNat_le.1 hHigh
      have hMul := Nat.mul_le_mul_right (256 ^ c.length) hTop
      have hPow : 256 ^ c.length < 256 ^ w := by omega
      have hLength := (Nat.pow_lt_pow_iff_right (by decide)).1 hPow
      rw [hForm, List.length_cons, List.length_cons]
      omega

theorem length_ofNat_mono {m n : Nat} (h : m ≤ n) :
    (ofNat m).length ≤ (ofNat n).length := by
  rcases Nat.eq_zero_or_pos m with rfl | hm
  · exact Nat.zero_le _
  · have hLength := length_ofNat_le (h.trans_lt (lt_of_length_ofNat n))
    have hNe : (ofNat n).length ≠ 0 := by
      intro hNil
      have hValue := value?_ofNat (hm.trans_le h)
      rw [List.length_eq_zero_iff.1 hNil] at hValue
      cases hValue
    omega

/-! ## Binary digits -/

theorem toNat_ne_zero {x : UInt8} (h : x ≠ 0) : x.toNat ≠ 0 :=
  fun h0 => h (UInt8.toNat_inj.1 h0)

theorem byteBits_le {x : UInt8} {k : Nat} (h : x.toNat < 2 ^ k) : byteBits x ≤ k := by
  rw [byteBits]
  split
  · exact Nat.zero_le k
  · next hx => exact (Nat.log2_lt (toNat_ne_zero hx)).2 h

/-- A positive integer is written with as many binary digits as its value has. -/
theorem bits_ofNat {n : Nat} (h : 0 < n) : bits (ofNat n) = n.log2 + 1 := by
  obtain ⟨x, c, hDigits, hx, hValue⟩ := exists_digits?_ofNat h
  have hByte : byteBits x = x.toNat.log2 + 1 := if_neg hx
  have hLow := Nat.log2_self_le (toNat_ne_zero hx)
  have hHigh : x.toNat < 2 ^ (x.toNat.log2 + 1) := Nat.lt_log2_self
  have hRest := Bytes.toNat_lt c
  have hPow : 256 ^ c.length = 2 ^ (8 * c.length) := by
    rw [Nat.pow_mul]
  have hLog : n.log2 = x.toNat.log2 + 8 * c.length := by
    refine (Nat.log2_eq_iff h.ne').2 ⟨?_, ?_⟩
    · have hMul := Nat.mul_le_mul_right (256 ^ c.length) hLow
      rw [Nat.pow_add, ← hPow]
      omega
    · have hMul := Nat.mul_le_mul_right (256 ^ c.length) (Nat.succ_le_of_lt hHigh)
      rw [Nat.succ_mul] at hMul
      rw [Nat.add_right_comm, Nat.pow_add, ← hPow]
      omega
  have hBits : bits (ofNat n) = c.length * 8 + byteBits x := by
    rw [bits, hDigits]
  omega

/-- The highest digit of a byte in front is zero, so some digit is always missing. -/
theorem bits_lt {b : Bytes} {limit : Nat} (h : b.length ≤ limit) (hLimit : 0 < limit) :
    bits b < 8 * limit := by
  rw [bits, digits?.eq_def]
  split
  · next first rest hDigits =>
    split at hDigits
    · cases hDigits
    · cases hDigits
      have hFirst := byteBits_le (k := 8) first.toNat_lt
      simp only [List.length_cons] at h
      omega
    · split at hDigits
      · next hLow =>
        cases hDigits
        have hFirst := byteBits_le (k := 7) (UInt8.lt_iff_toNat_lt.1 hLow)
        simp only [List.length_cons] at h
        omega
      · cases hDigits
  · omega

/-- A number takes at most `limit` bytes if and only if it has fewer binary digits than they. -/
theorem length_ofNat_le_iff {n limit : Nat} (hLimit : 0 < limit) :
    (ofNat n).length ≤ limit ↔ bits (ofNat n) < 8 * limit := by
  constructor
  · intro h
    exact bits_lt h hLimit
  · intro h
    rcases Nat.eq_zero_or_pos n with rfl | hn
    · exact Nat.zero_le _
    · rw [bits_ofNat hn] at h
      obtain ⟨w, rfl⟩ : ∃ w, limit = w + 1 := ⟨limit - 1, by omega⟩
      have hPow : 128 * 256 ^ w = 2 ^ (7 + 8 * w) := by
        rw [Nat.pow_add, Nat.pow_mul]
      refine length_ofNat_le ?_
      rw [hPow]
      exact (Nat.log2_lt hn.ne').1 (by omega)

/-- A number of more than `limit` digits to base 256 takes more bytes than that. -/
theorem lt_length_ofNat {n limit : Nat} (hLimit : 0 < limit) (h : 256 ^ limit ≤ n) :
    limit < (ofNat n).length := by
  have hPos : 0 < n := (Nat.pow_pos (by decide)).trans_le h
  have hLog : 8 * limit ≤ n.log2 := by
    refine (Nat.le_log2 hPos.ne').2 ?_
    rw [Nat.pow_mul]
    exact h
  rw [← not_le, length_ofNat_le_iff hLimit, bits_ofNat hPos]
  omega

end Integer

end SshKeys
