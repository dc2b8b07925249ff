import Mathlib.Data.List.Induction
import Mathlib.Data.Nat.Bitwise
import Mathlib.Data.Nat.Digits.Defs
import Mathlib.Tactic.Ring
import SshKeys.Bytes

/-!
# Numbers, words and texts as bytes

The readings of `Bytes` undo its writings: `toNat` undoes `ofNat`, the word of
four bytes undoes `be32`, and `toString?` undoes `ofString`.  Each also has its
converse, so a byte string read as a number, word or text is the written form of
what was read.

`littleEndian` says without the code which number a byte string is, and `wordAt` which
word stands at a place of it; the descriptions of the ciphers are in these terms.
-/

namespace SshKeys.Bytes

/-! ## Numbers -/

@[simp] theorem toNat_nil : toNat [] = 0 := rfl

theorem toNat_append (a b : Bytes) : toNat (a ++ b) = toNat a * 256 ^ b.length + toNat b := by
  induction b using List.reverseRecOn with
  | nil => simp
  | append_singleton b x ih =>
    have h (c : Bytes) : toNat (c ++ [x]) = toNat c * 256 + x.toNat := by
      simp [toNat, List.foldl_append]
    rw [← List.append_assoc, h, ih, h, List.length_append, List.length_singleton, pow_succ]
    ring

theorem toNat_cons (x : UInt8) (b : Bytes) :
    toNat (x :: b) = x.toNat * 256 ^ b.length + toNat b := by
  have h := toNat_append [x] b
  simpa [toNat] using h

theorem toNat_lt (b : Bytes) : toNat b < 256 ^ b.length := by
  induction b with
  | nil => simp
  | cons x b ih =>
    rw [toNat_cons, List.length_cons, pow_succ]
    have hx : x.toNat + 1 ≤ 256 := x.toNat_lt
    have h := Nat.mul_le_mul_right (256 ^ b.length) hx
    rw [Nat.add_mul] at h
    omega

theorem ofNat_go (w n : Nat) (acc : Bytes) : ofNat.go w n acc = ofNat w n ++ acc := by
  induction w generalizing n acc with
  | zero => rfl
  | succ w ih =>
    rw [ofNat, ofNat.go, ih, ofNat.go, ih _ [UInt8.ofNat n], List.append_assoc,
      List.singleton_append]

theorem ofNat_succ (w n : Nat) : ofNat (w + 1) n = ofNat w (n / 256) ++ [UInt8.ofNat n] := by
  rw [ofNat, ofNat.go, ofNat_go]

@[simp] theorem length_ofNat (w n : Nat) : (ofNat w n).length = w := by
  induction w generalizing n with
  | zero => rfl
  | succ w ih => rw [ofNat_succ, List.length_append, ih, List.length_singleton]

theorem toNat_ofNat {w n : Nat} (h : n < 256 ^ w) : toNat (ofNat w n) = n := by
  induction w generalizing n with
  | zero =>
    have h0 : n = 0 := by simpa using h
    rw [h0]
    rfl
  | succ w ih =>
    have hq : n / 256 < 256 ^ w := Nat.div_lt_of_lt_mul (by rwa [pow_succ'] at h)
    rw [ofNat_succ, toNat_append, ih hq, toNat_cons]
    simp only [List.length_singleton, List.length_nil, pow_zero, toNat_nil, UInt8.toNat_ofNat']
    omega

theorem ofNat_toNat (b : Bytes) : ofNat b.length (toNat b) = b := by
  induction b using List.reverseRecOn with
  | nil => rfl
  | append_singleton b x ih =>
    have hx : x.toNat < 256 := x.toNat_lt
    rw [List.length_append, List.length_singleton, ofNat_succ, toNat_append, toNat_cons]
    simp only [List.length_singleton, List.length_nil, pow_zero, pow_one, toNat_nil, mul_one,
      add_zero]
    rw [show (toNat b * 256 + x.toNat) / 256 = toNat b by omega, ih]
    congr 2
    apply UInt8.toNat_inj.1
    rw [UInt8.toNat_ofNat']
    omega

/-- Of a number only as many bytes count as are written. -/
theorem ofNat_mod (w n : Nat) : ofNat w (n % 256 ^ w) = ofNat w n := by
  induction w generalizing n with
  | zero => rfl
  | succ w ih =>
    have hLast : UInt8.ofNat (n % (256 * 256 ^ w)) = UInt8.ofNat n := by
      apply UInt8.toNat_inj.1
      rw [UInt8.toNat_ofNat', UInt8.toNat_ofNat', Nat.mod_mul_right_mod]
    rw [ofNat_succ, ofNat_succ, pow_succ', Nat.mod_mul_right_div_self, ih, hLast]

theorem toNat_ofNat_mod (w n : Nat) : toNat (ofNat w n) = n % 256 ^ w := by
  rw [← ofNat_mod, toNat_ofNat (Nat.mod_lt _ (Nat.pow_pos (by decide)))]

/-- The number of a byte string, its least significant byte first. -/
def littleEndian (b : Bytes) : Nat :=
  Nat.ofDigits 256 (b.map UInt8.toNat)

theorem littleEndian_cons (x : UInt8) (b : Bytes) :
    littleEndian (x :: b) = x.toNat + 256 * littleEndian b := by
  rw [littleEndian, List.map_cons, Nat.ofDigits_cons]
  rfl

theorem toNatLE_eq (b : Bytes) : toNatLE b = littleEndian b := by
  induction b with
  | nil => rfl
  | cons x b ih =>
    rw [toNatLE] at ih
    rw [littleEndian_cons, toNatLE, List.reverse_cons, toNat_append, ih]
    simp only [List.length_singleton, pow_one, toNat_cons, toNat_nil, List.length_nil, pow_zero]
    omega

theorem toNatLE_ofNatLE (w n : Nat) : toNatLE (ofNatLE w n) = n % 256 ^ w := by
  rw [toNatLE, ofNatLE, List.reverse_reverse, toNat_ofNat_mod]

theorem length_ofNatLE (w n : Nat) : (ofNatLE w n).length = w := by
  rw [ofNatLE, List.length_reverse, length_ofNat]

/-! ## Words -/

@[simp] theorem length_be32 (w : UInt32) : (be32 w).length = 4 := rfl

theorem toNat_be32 (w : UInt32) : toNat (be32 w) = w.toNat := by
  have hw : w.toNat < 4294967296 := w.toNat_lt
  have h24 : (w >>> 24).toNat = w.toNat / 16777216 := by
    simp [UInt32.toNat_shiftRight, Nat.shiftRight_eq_div_pow]
  have h16 : (w >>> 16).toNat = w.toNat / 65536 := by
    simp [UInt32.toNat_shiftRight, Nat.shiftRight_eq_div_pow]
  have h8 : (w >>> 8).toNat = w.toNat / 256 := by
    simp [UInt32.toNat_shiftRight, Nat.shiftRight_eq_div_pow]
  simp only [be32, toNat, List.foldl_cons, List.foldl_nil, UInt32.toNat_toUInt8, h24, h16, h8]
  omega

theorem be32_eq_ofNat (w : UInt32) : be32 w = ofNat 4 w.toNat := by
  rw [← toNat_be32, ← length_be32 w, ofNat_toNat]

theorem toNat_word32 (a b c d : UInt8) : (word32 a b c d).toNat = toNat [a, b, c, d] := by
  have ha : a.toNat < 256 := a.toNat_lt
  have hb : b.toNat < 256 := b.toNat_lt
  have hc : c.toNat < 256 := c.toNat_lt
  have hd : d.toNat < 256 := d.toNat_lt
  -- The four shifted bytes do not overlap, so each `|||` is a sum.
  have h2 : a.toNat <<< 24 ||| b.toNat <<< 16 = (a.toNat * 256 + b.toNat) <<< 16 := by
    rw [← Nat.shiftLeft_add_eq_or_of_lt (by rw [Nat.shiftLeft_eq]; omega)]
    simp only [Nat.shiftLeft_eq]
    omega
  have h3 : (a.toNat * 256 + b.toNat) <<< 16 ||| c.toNat <<< 8
      = ((a.toNat * 256 + b.toNat) * 256 + c.toNat) <<< 8 := by
    rw [← Nat.shiftLeft_add_eq_or_of_lt (by rw [Nat.shiftLeft_eq]; omega)]
    simp only [Nat.shiftLeft_eq]
    omega
  have h4 : ((a.toNat * 256 + b.toNat) * 256 + c.toNat) <<< 8 ||| d.toNat = toNat [a, b, c, d] := by
    rw [← Nat.shiftLeft_add_eq_or_of_lt (by omega)]
    simp only [Nat.shiftLeft_eq, toNat, List.foldl_cons, List.foldl_nil]
    omega
  have s24 : (a.toUInt32 <<< 24).toNat = a.toNat <<< 24 := by
    simp [UInt32.toNat_shiftLeft, Nat.shiftLeft_eq]
    omega
  have s16 : (b.toUInt32 <<< 16).toNat = b.toNat <<< 16 := by
    simp [UInt32.toNat_shiftLeft, Nat.shiftLeft_eq]
    omega
  have s8 : (c.toUInt32 <<< 8).toNat = c.toNat <<< 8 := by
    simp [UInt32.toNat_shiftLeft, Nat.shiftLeft_eq]
    omega
  simp only [word32, UInt32.toNat_or, s24, s16, s8, UInt8.toNat_toUInt32]
  rw [h2, h3, h4]

theorem be32_word32 (a b c d : UInt8) : be32 (word32 a b c d) = [a, b, c, d] := by
  rw [be32_eq_ofNat, toNat_word32]
  exact ofNat_toNat [a, b, c, d]

/-- Word `i` of a byte string, its least significant byte first. -/
def wordAt (b : Bytes) (i : Nat) : UInt32 :=
  UInt32.ofNat (littleEndian ((b.drop (4 * i)).take 4))

theorem word32_eq (a b c d : UInt8) :
    word32 d c b a = UInt32.ofNat (littleEndian [a, b, c, d]) := by
  rw [← toNatLE_eq, toNatLE, List.reverse_cons, List.reverse_cons, List.reverse_cons]
  exact (UInt32.ofNat_toNat (x := word32 d c b a)).symm.trans
    (congrArg UInt32.ofNat (toNat_word32 d c b a))

theorem getElem?_words32LE {b : Bytes} {i : Nat} (h : 4 * i + 4 ≤ b.length) :
    (words32LE b)[i]? = some (wordAt b i) := by
  fun_induction words32LE b generalizing i with
  | case1 a b c d rest ih =>
    cases i with
    | zero => rw [List.getElem?_cons_zero, word32_eq]; rfl
    | succ i =>
      rw [List.getElem?_cons_succ, ih (by simp only [List.length_cons] at h; omega), wordAt, wordAt]
      rfl
  | case2 b hb =>
    match b, hb with
    | [], _ | [_], _ | [_, _], _ | [_, _, _], _ =>
      simp only [List.length_cons, List.length_nil] at h
      omega
    | a :: b :: c :: d :: rest, hb => exact absurd rfl (hb a b c d rest)

theorem length_words32LE (b : Bytes) : (words32LE b).length = b.length / 4 := by
  fun_induction words32LE b with
  | case1 a b c d rest ih =>
    simp only [List.length_cons, ih]
    omega
  | case2 b hShort =>
    match b, hShort with
    | [], _ | [_], _ | [_, _], _ | [_, _, _], _ => simp
    | a :: b :: c :: d :: rest, hShort => exact absurd rfl (hShort a b c d rest)

/-- Byte `i` of a word is what is left of it after `i` bytes were shifted out. -/
theorem getElem?_le32 (w : UInt32) {i : Nat} (h : i < 4) :
    (le32 w)[i]? = some (UInt8.ofNat (w.toNat / 256 ^ i)) := by
  have hShift (n : UInt32) : (w >>> n).toUInt8 = UInt8.ofNat (w.toNat / 2 ^ (n.toNat % 32)) := by
    show UInt8.ofNat (w >>> n).toNat = _
    rw [UInt32.toNat_shiftRight, Nat.shiftRight_eq_div_pow]
  match i, h with
  | 0, _ =>
    rw [pow_zero, Nat.div_one]
    rfl
  | 1, _ => exact congrArg some (hShift 8)
  | 2, _ => exact congrArg some (hShift 16)
  | 3, _ => exact congrArg some (hShift 24)

/-! ## Texts -/

theorem byteArray_toList_loop (b : ByteArray) (i : Nat) (acc : List UInt8) :
    ByteArray.toList.loop b i acc = acc.reverse ++ b.data.toList.drop i := by
  induction hk : b.size - i generalizing i acc with
  | zero =>
    rw [ByteArray.toList.loop, if_neg (by omega),
      List.drop_eq_nil_of_le (by simpa using Nat.sub_eq_zero_iff_le.1 hk), List.append_nil]
  | succ k ih =>
    have hi : i < b.data.toList.length := by
      rw [Array.length_toList]
      change i < b.size
      omega
    have hget : b.get! i = b.data.toList[i] := getElem!_pos b.data i (by simpa using hi)
    rw [ByteArray.toList.loop, if_pos (by omega), ih _ _ (by omega), List.drop_eq_getElem_cons hi,
      hget, List.reverse_cons, List.append_assoc, List.singleton_append]

theorem byteArray_toList (b : ByteArray) : b.toList = b.data.toList := by
  rw [ByteArray.toList, byteArray_toList_loop, List.reverse_nil, List.nil_append, List.drop_zero]

theorem toString?_ofString (s : String) : toString? (ofString s) = some s := by
  rw [toString?, ofString, byteArray_toList, Array.toArray_toList]
  simp only [String.fromUTF8?, String.toUTF8_eq_toByteArray, dif_pos s.isValidUTF8]
  rfl

theorem toString?_eq_some_iff {b : Bytes} {s : String} : toString? b = some s ↔ b = ofString s := by
  constructor
  · intro h
    simp only [toString?, String.fromUTF8?] at h
    split at h
    · cases h
      rw [ofString, byteArray_toList]
      rfl
    · cases h
  · rintro rfl
    exact toString?_ofString s

theorem length_ofString (s : String) : (ofString s).length = s.utf8ByteSize := by
  rw [ofString, byteArray_toList]
  rfl

theorem ofString_eq_nil_iff {s : String} : ofString s = [] ↔ s = "" := by
  rw [← List.length_eq_zero_iff, length_ofString]
  exact String.utf8ByteSize_eq_zero_iff

theorem ofString_eq_flatMap (s : String) : ofString s = s.toList.flatMap String.utf8EncodeChar := by
  rw [ofString, String.toUTF8_eq_toByteArray, ← String.utf8Encode_toList, List.utf8Encode,
    byteArray_toList, List.data_toByteArray, List.toList_toArray]

theorem ofString_append (s t : String) : ofString (s ++ t) = ofString s ++ ofString t := by
  rw [ofString_eq_flatMap, ofString_eq_flatMap, ofString_eq_flatMap, String.toList_append,
    List.flatMap_append]

def isAscii (cs : List Char) : Bool :=
  cs.all (·.toNat < 128)

theorem isAscii_iff {cs : List Char} : isAscii cs = true ↔ ∀ c ∈ cs, c.toNat < 128 := by
  simp only [isAscii, List.all_eq_true, decide_eq_true_eq]

theorem isAscii_append {cs ds : List Char} (hc : isAscii cs = true) (hd : isAscii ds = true) :
    isAscii (cs ++ ds) = true := by
  rw [isAscii, List.all_append, Bool.and_eq_true]
  exact ⟨hc, hd⟩

/-- A character of ASCII is one byte. -/
theorem ofString_ascii {s : String} (hAscii : isAscii s.toList = true) :
    ofString s = s.toList.map fun c => UInt8.ofNat c.toNat := by
  have h := isAscii_iff.1 hAscii
  rw [ofString_eq_flatMap]
  clear hAscii
  generalize s.toList = cs at h
  induction cs with
  | nil => rfl
  | cons c cs ih =>
    have hc : c.toNat < 128 := h c List.mem_cons_self
    have hSize : c.utf8Size = 1 := Char.utf8Size_eq_one_iff.2 (by
      rw [UInt32.le_iff_toNat_le]
      change c.toNat ≤ 127
      omega)
    rw [List.flatMap_cons, ih fun d hd => h d (List.mem_cons_of_mem c hd),
      String.utf8EncodeChar_eq_singleton hSize, List.map_cons, List.singleton_append]
    rfl

/-! ## Exclusive or -/

@[simp] theorem length_xor (a b : Bytes) : (xor a b).length = min a.length b.length := by
  simp [xor]

theorem xor_comm (a b : Bytes) : xor a b = xor b a := by
  rw [xor, xor, List.zipWith_comm]
  simp only [UInt8.xor_comm]

theorem xor_xor_cancel {a k : Bytes} (h : a.length ≤ k.length) : xor (xor a k) k = a := by
  induction a generalizing k with
  | nil => rfl
  | cons x a ih =>
    cases k with
    | nil => simp at h
    | cons y k =>
      have hk : a.length ≤ k.length := by simpa using h
      have hx : x ^^^ y ^^^ y = x := by rw [UInt8.xor_assoc, UInt8.xor_self, UInt8.xor_zero]
      calc xor (xor (x :: a) (y :: k)) (y :: k)
          = (x ^^^ y ^^^ y) :: xor (xor a k) k := rfl
        _ = x :: a := by rw [hx, ih hk]

end SshKeys.Bytes
