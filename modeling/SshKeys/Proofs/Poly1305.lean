import Mathlib.Algebra.BigOperators.Ring.Finset
import Mathlib.Data.Int.ModEq
import SshKeys.Proofs.Cipher

/-!
# The tag of a message as the value of a polynomial

RFC 8439 reads a message as a polynomial whose coefficients are its pieces of sixteen
bytes, and takes its value at a point that is half of the key, with some bits of some
bytes cleared.  `Poly1305.tag` folds the pieces up and reduces at every one of them, and
it clears the bits with one mask for all bytes.

* `foldl_range_eq_sum`: the reductions can be taken together at the end.
* `point_eq`: **the mask clears the bits byte by byte**.
* `isTag_tag`: **the tag is the one of the polynomial**; there is only one (`IsTag.eq`).
-/

namespace SshKeys

open Bytes (littleEndian littleEndian_cons toNatLE_eq)

namespace Poly1305

/-! ## The description -/

/-- How many pieces of sixteen bytes a message has, the last of them possibly shorter. -/
def pieceCount (message : Bytes) : Nat :=
  (message.length + 15) / 16

def piece (message : Bytes) (i : Nat) : Bytes :=
  (message.drop (16 * i)).take 16

/-- The polynomial of a message at `r`.  A piece counts as its number with one more bit behind
its bytes, and the first of them has the highest power. -/
def polynomial (message : Bytes) (r : Nat) : Nat :=
  ∑ i ∈ Finset.range (pieceCount message),
    (littleEndian (piece message i) + 256 ^ (piece message i).length)
      * r ^ (pieceCount message - i)

/-- Every fourth byte keeps its four low bits, and the bytes behind those keep their six high
ones. -/
def clamped (r : Bytes) : Bytes :=
  r.mapIdx fun i x => if i % 4 = 3 then x % 16 else if i % 4 = 0 ∧ i ≠ 0 then x / 4 * 4 else x

/-- The tag of a message: the value of its polynomial at the clamped first half of the key, and the
second half added to it. -/
structure IsTag (key message tag : Bytes) : Prop where
  length_eq : tag.length = 16
  value_eq : littleEndian tag =
    (polynomial message (littleEndian (clamped (key.take 16))) % (2 ^ 130 - 5) +
      littleEndian (key.drop 16)) % 2 ^ 128

theorem IsTag.eq {key message t t' : Bytes} (h : IsTag key message t) (h' : IsTag key message t') :
    t = t' := by
  have hValue := h.value_eq.trans h'.value_eq.symm
  have hDigits := Nat.ofDigits_inj_of_len_eq (by decide : 1 < 256)
    (by rw [List.length_map, List.length_map, h.length_eq, h'.length_eq])
    (fun d hd => by obtain ⟨x, -, rfl⟩ := List.mem_map.1 hd; exact x.toNat_lt)
    (fun d hd => by obtain ⟨x, -, rfl⟩ := List.mem_map.1 hd; exact x.toNat_lt) hValue
  exact List.map_injective_iff.2 (fun _ _ => UInt8.toNat_inj.1) hDigits

/-! ## The point -/

/-- The bits that two numbers share are those that their bytes share. -/
theorem littleEndian_and {a b : Bytes} (h : a.length = b.length) :
    littleEndian a &&& littleEndian b = littleEndian (List.zipWith (· &&& ·) a b) := by
  induction a generalizing b with
  | nil => exact Nat.zero_and _
  | cons x a ih =>
    match b, h with
    | y :: b, h =>
      have hLow (z : UInt8) (c : Bytes) : littleEndian (z :: c) % 2 ^ 8 = z.toNat := by
        have hz := z.toNat_lt
        rw [littleEndian_cons]
        omega
      have hHigh (z : UInt8) (c : Bytes) : littleEndian (z :: c) / 2 ^ 8 = littleEndian c := by
        have hz := z.toNat_lt
        rw [littleEndian_cons]
        omega
      rw [← Nat.mod_add_div (littleEndian (x :: a) &&& littleEndian (y :: b)) (2 ^ 8),
        Nat.and_mod_two_pow, Nat.and_div_two_pow, hLow, hLow, hHigh, hHigh, ih (Nat.succ.inj h),
        List.zipWith_cons_cons, littleEndian_cons, UInt8.toNat_and]
      rfl

/-- The mask, byte by byte. -/
def clampMask : Bytes :=
  [0xff, 0xff, 0xff, 0x0f, 0xfc, 0xff, 0xff, 0x0f, 0xfc, 0xff, 0xff, 0x0f, 0xfc, 0xff, 0xff, 0x0f]

theorem and_clampMask {r : Bytes} (h : r.length = 16) :
    List.zipWith (· &&& ·) r clampMask = clamped r := by
  have hByte : ∀ n : Fin 256, n.val &&& 255 = n.val ∧ n.val &&& 15 = n.val % 16 ∧
      n.val &&& 252 = n.val / 4 * 4 := by decide +kernel
  have hAll (x : UInt8) : x &&& 0xff = x := by
    rw [← UInt8.toNat_inj, UInt8.toNat_and]
    exact (hByte ⟨x.toNat, x.toNat_lt⟩).1
  have hLow (x : UInt8) : x &&& 0x0f = x % 16 := by
    rw [← UInt8.toNat_inj, UInt8.toNat_and, UInt8.toNat_mod]
    exact (hByte ⟨x.toNat, x.toNat_lt⟩).2.1
  have hHigh (x : UInt8) : x &&& 0xfc = x / 4 * 4 := by
    have hx := x.toNat_lt
    have hSmall : x.toNat / 4 * 4 % 2 ^ 8 = x.toNat / 4 * 4 := Nat.mod_eq_of_lt (by omega)
    rw [← UInt8.toNat_inj, UInt8.toNat_and, UInt8.toNat_mul, UInt8.toNat_div]
    exact (hByte ⟨x.toNat, x.toNat_lt⟩).2.2.trans hSmall.symm
  match r, h with
  | [_, _, _, _, _, _, _, _, _, _, _, _, _, _, _, _], _ =>
    simp [clampMask, clamped, hAll, hLow, hHigh]

theorem point_eq {key : Bytes} (h : 16 ≤ key.length) :
    point key = littleEndian (clamped (key.take 16)) := by
  have hTake : (key.take 16).length = 16 := List.length_take_of_le h
  have hMask : (0x0ffffffc0ffffffc0ffffffc0fffffff : Nat) = littleEndian clampMask := by
    decide +kernel
  rw [point, toNatLE_eq, hMask, littleEndian_and hTake, and_clampMask hTake]

/-! ## The fold -/

theorem coefficient_eq (p : Bytes) : coefficient p = littleEndian p + 256 ^ p.length := by
  rw [coefficient, Bytes.toNatLE, List.reverse_append]
  show Bytes.toNat (1 :: p.reverse) = _
  rw [Bytes.toNat_cons, List.length_reverse, ← Bytes.toNatLE, toNatLE_eq, Nat.add_comm]
  exact congrArg _ (Nat.one_mul _)

/-- A fold that reduces at every step ends in the remainder of a sum of powers. -/
theorem foldl_range_eq_sum (a : Nat → Nat) (r m n : Nat) :
    (List.range n).foldl (fun acc i => (acc + a i) * r % m) 0 =
      (∑ i ∈ Finset.range n, a i * r ^ (n - i)) % m := by
  induction n with
  | zero => simp
  | succ n ih =>
    have hShift : ∑ i ∈ Finset.range n, a i * r ^ (n + 1 - i) =
        (∑ i ∈ Finset.range n, a i * r ^ (n - i)) * r := by
      rw [Finset.sum_mul]
      refine Finset.sum_congr rfl fun i hi => ?_
      rw [Nat.succ_sub (Finset.mem_range.1 hi).le, pow_succ, mul_assoc]
    rw [List.range_succ, List.foldl_append, ih, Finset.sum_range_succ, hShift,
      Nat.add_sub_cancel_left, pow_one, ← add_mul]
    show (_ % m + a n) * r % m = _
    exact ((Nat.mod_modEq _ m).add_right (a n)).mul_right r

theorem tag_eq {key : Bytes} (h : 16 ≤ key.length) (message : Bytes) :
    tag key message = Bytes.ofNatLE 16
      (polynomial message (littleEndian (clamped (key.take 16))) % (2 ^ 130 - 5) +
        littleEndian (key.drop 16)) := by
  have hSum := foldl_range_eq_sum (fun i => coefficient (piece message i)) (point key) prime
    (pieceCount message)
  rw [tag, chunks_eq_map_range (by decide), List.foldl_map]
  show Bytes.ofNatLE 16 ((List.range (pieceCount message)).foldl
    (fun acc i => (acc + coefficient (piece message i)) * point key % prime) 0 + _) = _
  rw [hSum, point_eq h, toNatLE_eq]
  simp only [coefficient_eq]
  rfl

/-- **The folded up tag is the one of the polynomial.** -/
theorem isTag_tag {key : Bytes} (h : 16 ≤ key.length) (message : Bytes) :
    IsTag key message (tag key message) where
  length_eq := by rw [tag_eq h, Bytes.length_ofNatLE]
  value_eq := by
    rw [tag_eq h, ← toNatLE_eq, Bytes.toNatLE_ofNatLE]
    rfl

end Poly1305

end SshKeys
