import Mathlib.Data.List.Basic
import SshKeys.Proofs.Bytes
import SshKeys.Proofs.Steps
import SshKeys.Text.Base64

/-!
# Base64 read back

`decode_eq_ok_iff`: **a text reads as a byte string exactly when it is the written
form of that string**; `decode_encode` is one direction of it.
`encode_append` splits a written form where its groups do, and
`isSymbol_of_mem_encode` says which bytes stand in it.
-/

namespace SshKeys.Base64

/-! ## Symbols -/

theorem value?_symbol {n : Nat} (h : n < 64) : value? (symbol n) = some n := by
  have hAll : ∀ n < 64, value? (symbol n) = some n := by decide
  exact hAll n h

theorem symbol_ne_padding {n : Nat} (h : n < 64) : symbol n ≠ padding := by
  have hAll : ∀ n < 64, symbol n ≠ padding := by decide
  exact hAll n h

/-- The bytes a written form consists of. -/
def IsSymbol (x : UInt8) : Prop :=
  x = padding ∨ ∃ n < 64, x = symbol n

theorem isSymbol_symbol {n : Nat} (h : n < 64) : IsSymbol (symbol n) :=
  .inr ⟨n, h, rfl⟩

theorem isSymbol_mod (n : Nat) : IsSymbol (symbol (n % 64)) :=
  isSymbol_symbol (Nat.mod_lt n (by decide))

theorem isSymbol_top {n : Nat} (h : n < 16777216) : IsSymbol (symbol (n >>> 18)) := by
  refine isSymbol_symbol ?_
  rw [Nat.shiftRight_eq_div_pow]
  omega

theorem group_lt (a b c : UInt8) : a.toNat <<< 16 + b.toNat <<< 8 + c.toNat < 16777216 := by
  have ha : a.toNat < 256 := a.toNat_lt
  have hb : b.toNat < 256 := b.toNat_lt
  have hc : c.toNat < 256 := c.toNat_lt
  simp only [Nat.shiftLeft_eq]
  omega

theorem isSymbol_of_mem_encode (b : Bytes) : ∀ x ∈ encode b, IsSymbol x := by
  have hNil : ∀ x ∈ ([] : Bytes), IsSymbol x := fun _ h => nomatch h
  fun_induction encode b with
  | case1 => exact hNil
  | case2 a n =>
    have hn : n < 16777216 := lt_of_le_of_lt (by omega) (group_lt a 0 0)
    simp only [List.forall_mem_cons]
    exact ⟨isSymbol_top hn, isSymbol_mod _, .inl rfl, .inl rfl, hNil⟩
  | case3 a b n =>
    have hn : n < 16777216 := lt_of_le_of_lt (by omega) (group_lt a b 0)
    simp only [List.forall_mem_cons]
    exact ⟨isSymbol_top hn, isSymbol_mod _, isSymbol_mod _, .inl rfl, hNil⟩
  | case4 a b c rest n ih =>
    simp only [List.forall_mem_cons]
    exact ⟨isSymbol_top (group_lt a b c), isSymbol_mod _, isSymbol_mod _, isSymbol_mod _, ih⟩

/-! ## Groups -/

theorem length_encode (b : Bytes) : (encode b).length = (b.length + 2) / 3 * 4 := by
  fun_induction encode b with
  | case1 => rfl
  | case2 a n => simp
  | case3 a b n => simp
  | case4 a b c rest n ih =>
    simp only [List.length_cons, ih]
    omega

theorem encode_ne_nil {b : Bytes} (h : b ≠ []) : encode b ≠ [] := by
  have hLength := length_encode b
  have hPos : 0 < b.length := List.length_pos_iff.2 h
  intro hNil
  rw [hNil, List.length_nil] at hLength
  omega

theorem encode_append {a b : Bytes} (h : a.length % 3 = 0) :
    encode (a ++ b) = encode a ++ encode b := by
  fun_induction encode a with
  | case1 => rfl
  | case2 x n => simp at h
  | case3 x y n => simp at h
  | case4 x y z rest n ih =>
    have hRest : rest.length % 3 = 0 := by
      simp only [List.length_cons] at h
      omega
    simp only [List.cons_append, encode, ih hRest, n]

/-- The scan of the last group: its symbols are taken while no padding has been seen. -/
theorem scanLast_symbol {n : Nat} (h : n < 64) (offset place paddings : Nat) (symbols : List Nat)
    (rest : Bytes) :
    scanLast offset place symbols none paddings (symbol n :: rest) =
      scanLast offset (place + 1) (symbols ++ [n]) none paddings rest := by
  rw [scanLast, if_neg (symbol_ne_padding h), value?_symbol h]

theorem scanLast_padding {place : Nat} (h : 2 ≤ place) (offset paddings : Nat)
    (symbols : List Nat) (first : Option Nat) (rest : Bytes) :
    scanLast offset place symbols first paddings (padding :: rest) =
      scanLast offset (place + 1) symbols (first.or (some place)) (paddings + 1) rest := by
  cases first <;> rw [scanLast, if_pos rfl, if_neg (by omega)]

theorem decodeLast_four {v w x y : Nat} (offset : Nat) (hv : v < 64) (hw : w < 64) (hx : x < 64)
    (hy : y < 64) :
    decodeLast offset [symbol v, symbol w, symbol x, symbol y] =
      .ok [UInt8.ofNat ((v <<< 18 + w <<< 12 + x <<< 6 + y) >>> 16),
        UInt8.ofNat ((v <<< 18 + w <<< 12 + x <<< 6 + y) >>> 8),
        UInt8.ofNat (v <<< 18 + w <<< 12 + x <<< 6 + y)] := by
  rw [decodeLast, scanLast_symbol hv, scanLast_symbol hw, scanLast_symbol hx, scanLast_symbol hy]
  simp [scanLast, finish, bind, Except.bind]

theorem decodeLast_three {v w x : Nat} (offset : Nat) (hv : v < 64) (hw : w < 64) (hx : x < 64)
    (hBits : (v <<< 12 + w <<< 6 + x) % 4 = 0) :
    decodeLast offset [symbol v, symbol w, symbol x, padding] =
      .ok [UInt8.ofNat ((v <<< 12 + w <<< 6 + x) >>> 10),
        UInt8.ofNat ((v <<< 12 + w <<< 6 + x) >>> 2)] := by
  rw [decodeLast, scanLast_symbol hv, scanLast_symbol hw, scanLast_symbol hx,
    scanLast_padding (by omega)]
  simp [scanLast, finish, bind, Except.bind, hBits]

theorem decodeLast_two {v w : Nat} (offset : Nat) (hv : v < 64) (hw : w < 64)
    (hBits : (v <<< 6 + w) % 16 = 0) :
    decodeLast offset [symbol v, symbol w, padding, padding] =
      .ok [UInt8.ofNat ((v <<< 6 + w) >>> 4)] := by
  rw [decodeLast, scanLast_symbol hv, scanLast_symbol hw, scanLast_padding (by omega),
    scanLast_padding (by omega)]
  simp [scanLast, finish, bind, Except.bind, hBits]

theorem ofNat_eq {n : Nat} {x : UInt8} (h : n % 256 = x.toNat) : UInt8.ofNat n = x := by
  rw [← UInt8.toNat_inj, UInt8.toNat_ofNat', h]

/-- Four groups of six bits are three bytes again. -/
theorem bytes_of_groups {a b c : UInt8} {n m : Nat}
    (hn : n = a.toNat <<< 16 + b.toNat <<< 8 + c.toNat)
    (hm : m = (n >>> 18) <<< 18 + (n >>> 12 % 64) <<< 12 + (n >>> 6 % 64) <<< 6 + n % 64) :
    UInt8.ofNat (m >>> 16) = a ∧ UInt8.ofNat (m >>> 8) = b ∧ UInt8.ofNat m = c := by
  have ha : a.toNat < 256 := a.toNat_lt
  have hb : b.toNat < 256 := b.toNat_lt
  have hc : c.toNat < 256 := c.toNat_lt
  simp only [Nat.shiftLeft_eq, Nat.shiftRight_eq_div_pow] at hn hm ⊢
  exact ⟨ofNat_eq (by omega), ofNat_eq (by omega), ofNat_eq (by omega)⟩

theorem bytes_of_three {a b : UInt8} {n m : Nat} (hn : n = a.toNat <<< 16 + b.toNat <<< 8)
    (hm : m = (n >>> 18) <<< 12 + (n >>> 12 % 64) <<< 6 + n >>> 6 % 64) :
    m % 4 = 0 ∧ UInt8.ofNat (m >>> 10) = a ∧ UInt8.ofNat (m >>> 2) = b := by
  have ha : a.toNat < 256 := a.toNat_lt
  have hb : b.toNat < 256 := b.toNat_lt
  simp only [Nat.shiftLeft_eq, Nat.shiftRight_eq_div_pow] at hn hm ⊢
  exact ⟨by omega, ofNat_eq (by omega), ofNat_eq (by omega)⟩

theorem byte_of_two {a : UInt8} {n m : Nat} (hn : n = a.toNat <<< 16)
    (hm : m = (n >>> 18) <<< 6 + n >>> 12 % 64) : m % 16 = 0 ∧ UInt8.ofNat (m >>> 4) = a := by
  have ha : a.toNat < 256 := a.toNat_lt
  simp only [Nat.shiftLeft_eq, Nat.shiftRight_eq_div_pow] at hn hm ⊢
  exact ⟨by omega, ofNat_eq (by omega)⟩

theorem inner_symbol {n : Nat} (h : n < 64) (offset : Nat) : inner offset (symbol n) = .ok n := by
  rw [inner, value?_symbol h]

/-- **Group after group is read back**; only the last one may be short. -/
theorem decodeFrom_encode (offset : Nat) (b : Bytes) : decodeFrom offset (encode b) = .ok b := by
  have hMod (n : Nat) : n % 64 < 64 := Nat.mod_lt n (by decide)
  have hTop {n : Nat} (h : n < 16777216) : n >>> 18 < 64 := by
    rw [Nat.shiftRight_eq_div_pow]
    omega
  fun_induction encode b generalizing offset with
  | case1 => rfl
  | case2 a n =>
    have hn : n < 16777216 := lt_of_le_of_lt (by omega) (group_lt a 0 0)
    obtain ⟨hBits, ha⟩ := byte_of_two (a := a) (n := n) rfl rfl
    rw [decodeFrom, decodeLast_two offset (hTop hn) (hMod _) hBits, ha]
    all_goals simp
  | case3 a b n =>
    have hn : n < 16777216 := lt_of_le_of_lt (by omega) (group_lt a b 0)
    obtain ⟨hBits, ha, hb⟩ := bytes_of_three (a := a) (b := b) (n := n) rfl rfl
    rw [decodeFrom, decodeLast_three offset (hTop hn) (hMod _) (hMod _) hBits, ha, hb]
    all_goals simp
  | case4 a b c rest n ih =>
    -- A full group is the last one exactly when nothing is left to write.
    have h18 : n >>> 18 < 64 := hTop (group_lt a b c)
    obtain ⟨ha, hb, hc⟩ := bytes_of_groups (a := a) (b := b) (c := c) (n := n) rfl rfl
    cases hTail : encode rest with
    | nil =>
      have hRest : rest = [] := by
        by_contra hNe
        exact encode_ne_nil hNe hTail
      rw [decodeFrom, decodeLast_four offset h18 (hMod _) (hMod _) (hMod _), ha, hb, hc, hRest]
      all_goals simp
    | cons x tail =>
      have hStep := ih (offset + 4)
      rw [hTail] at hStep
      rw [decodeFrom, inner_symbol h18, inner_symbol (hMod _), inner_symbol (hMod _),
        inner_symbol (hMod _), hStep]
      simp only [bind, Except.bind, pure, Except.pure, ha, hb, hc]

theorem decode_encode (b : Bytes) : decode (encode b) = .ok b := by
  have hLength := length_encode b
  rw [decode]
  cases hLast : (encode b).getLast? with
  | none =>
    have hNil := List.getLast?_eq_none_iff.1 hLast
    have hb : b = [] := by
      by_contra hNe
      exact encode_ne_nil hNe hNil
    rw [hb]
  | some x =>
    simp only
    rw [if_neg (by omega), decodeFrom_encode]

/-! ## One written form -/

theorem symbol_of_value? {x : UInt8} {n : Nat} (h : value? x = some n) : n < 64 ∧ symbol n = x := by
  have hAll : ∀ m < 256, (value? (UInt8.ofNat m)).all
      (fun n => n < 64 && symbol n = UInt8.ofNat m) = true := by
    decide +kernel
  have hOwn := hAll x.toNat x.toNat_lt
  rw [UInt8.ofNat_toNat, h] at hOwn
  simpa using hOwn

/-- Behind the first padding there is nothing but padding. -/
theorem scanLast_some_eq_ok {offset place first paddings k : Nat} {symbols s : List Nat}
    {rest : Bytes} (h : scanLast offset place symbols (some first) paddings rest = .ok (s, k)) :
    s = symbols ∧ ∃ m, rest = List.replicate m padding ∧ k = paddings + m := by
  induction rest generalizing place paddings with
  | nil =>
    cases h
    exact ⟨rfl, 0, rfl, rfl⟩
  | cons x rest ih =>
    rw [scanLast] at h
    split at h
    · next hx =>
      split at h
      · cases h
      · obtain ⟨hs, m, rfl, rfl⟩ := ih h
        exact ⟨hs, m + 1, by rw [hx, List.replicate_succ], by omega⟩
    · cases h

/-- The last group is symbols, then padding. -/
theorem scanLast_eq_ok {offset place k : Nat} {symbols s : List Nat} {rest : Bytes}
    (h : scanLast offset place symbols none 0 rest = .ok (s, k)) :
    ∃ vs, s = symbols ++ vs ∧ (∀ v ∈ vs, v < 64) ∧
      rest = vs.map symbol ++ List.replicate k padding := by
  induction rest generalizing place symbols with
  | nil =>
    cases h
    exact ⟨[], (List.append_nil _).symm, List.forall_mem_nil _, rfl⟩
  | cons x rest ih =>
    rw [scanLast] at h
    split at h
    · next hx =>
      split at h
      · cases h
      · obtain ⟨rfl, m, rfl, rfl⟩ := scanLast_some_eq_ok h
        refine ⟨[], (List.append_nil _).symm, List.forall_mem_nil _, ?_⟩
        rw [hx, ← List.replicate_succ, Nat.zero_add, Nat.add_comm]
        rfl
    · split at h
      · cases h
      · next v hv =>
        obtain ⟨hLt, rfl⟩ := symbol_of_value? hv
        obtain ⟨vs, rfl, hAll, rfl⟩ := ih h
        refine ⟨v :: vs, List.append_cons .. |>.symm, ?_, rfl⟩
        exact List.forall_mem_cons.2 ⟨hLt, hAll⟩

theorem encode_three {u v w x n : Nat} (hu : u < 64) (hv : v < 64) (hw : w < 64) (hx : x < 64)
    (hn : n = u <<< 18 + v <<< 12 + w <<< 6 + x) (rest : Bytes) :
    encode (UInt8.ofNat (n >>> 16) :: UInt8.ofNat (n >>> 8) :: UInt8.ofNat n :: rest) =
      symbol u :: symbol v :: symbol w :: symbol x :: encode rest := by
  simp only [Nat.shiftLeft_eq] at hn
  have hSum : (UInt8.ofNat (n >>> 16)).toNat <<< 16 + (UInt8.ofNat (n >>> 8)).toNat <<< 8 +
      (UInt8.ofNat n).toNat = n := by
    simp only [UInt8.toNat_ofNat', Nat.shiftLeft_eq, Nat.shiftRight_eq_div_pow]
    omega
  have hParts : n >>> 18 = u ∧ n >>> 12 % 64 = v ∧ n >>> 6 % 64 = w ∧ n % 64 = x := by
    simp only [Nat.shiftRight_eq_div_pow]
    omega
  simp only [encode, hSum, hParts]

theorem encode_two {u v w n : Nat} (hu : u < 64) (hv : v < 64) (hw : w < 64)
    (hn : n = u <<< 12 + v <<< 6 + w) (hBits : n % 4 = 0) :
    encode [UInt8.ofNat (n >>> 10), UInt8.ofNat (n >>> 2)] =
      [symbol u, symbol v, symbol w, padding] := by
  simp only [Nat.shiftLeft_eq] at hn
  have hSum : (UInt8.ofNat (n >>> 10)).toNat <<< 16 + (UInt8.ofNat (n >>> 2)).toNat <<< 8 =
      n * 64 := by
    simp only [UInt8.toNat_ofNat', Nat.shiftLeft_eq, Nat.shiftRight_eq_div_pow]
    omega
  have hParts : (n * 64) >>> 18 = u ∧ (n * 64) >>> 12 % 64 = v ∧ (n * 64) >>> 6 % 64 = w := by
    simp only [Nat.shiftRight_eq_div_pow]
    omega
  simp only [encode, hSum, hParts]

theorem encode_one {u v n : Nat} (hu : u < 64) (hv : v < 64) (hn : n = u <<< 6 + v)
    (hBits : n % 16 = 0) :
    encode [UInt8.ofNat (n >>> 4)] = [symbol u, symbol v, padding, padding] := by
  simp only [Nat.shiftLeft_eq] at hn
  have hSum : (UInt8.ofNat (n >>> 4)).toNat <<< 16 = n * 4096 := by
    simp only [UInt8.toNat_ofNat', Nat.shiftLeft_eq, Nat.shiftRight_eq_div_pow]
    omega
  have hParts : (n * 4096) >>> 18 = u ∧ (n * 4096) >>> 12 % 64 = v := by
    simp only [Nat.shiftRight_eq_div_pow]
    omega
  simp only [encode, hSum, hParts]

/-- The last group is the written form of what it gives. -/
theorem encode_of_decodeLast {offset : Nat} {group b : Bytes} (hGroup : group.length ≤ 4)
    (h : decodeLast offset group = .ok b) : encode b = group := by
  rw [decodeLast] at h
  obtain ⟨⟨s, k⟩, hScan, hFinish⟩ := Result.bind_eq_ok_iff.1 h
  obtain ⟨vs, hs, hLt, hGroupEq⟩ := scanLast_eq_ok hScan
  rw [List.nil_append] at hs
  subst hs
  rw [hGroupEq, List.length_append, List.length_map, List.length_replicate] at hGroup
  rw [hGroupEq]
  simp only [finish.eq_def] at hFinish
  split at hFinish
  · cases hFinish
  next hLength =>
  split at hFinish
  · next u v w x =>
    obtain rfl : k = 0 := by
      simp only [List.length_cons, List.length_nil] at hGroup
      omega
    simp only [List.forall_mem_cons] at hLt
    cases hFinish
    exact encode_three hLt.1 hLt.2.1 hLt.2.2.1 hLt.2.2.2.1 rfl []
  · next u v w =>
    obtain rfl : k = 1 := by
      simp only [List.length_cons, List.length_nil] at hGroup hLength
      omega
    simp only [List.forall_mem_cons] at hLt
    split at hFinish
    · next hBits =>
      cases hFinish
      exact encode_two hLt.1 hLt.2.1 hLt.2.2.1 rfl hBits
    · cases hFinish
  · next u v =>
    obtain rfl : k = 2 := by
      simp only [List.length_cons, List.length_nil] at hGroup hLength
      omega
    simp only [List.forall_mem_cons] at hLt
    split at hFinish
    · next hBits =>
      cases hFinish
      exact encode_one hLt.1 hLt.2.1 rfl hBits
    · cases hFinish
  · cases hFinish

theorem inner_eq_ok {offset n : Nat} {x : UInt8} (h : inner offset x = .ok n) :
    n < 64 ∧ symbol n = x := by
  rw [inner] at h
  split at h
  · next v hv =>
    cases h
    exact symbol_of_value? hv
  · cases h

theorem encode_of_decodeFrom {offset : Nat} {t b : Bytes} (h : decodeFrom offset t = .ok b) :
    encode b = t := by
  fun_induction decodeFrom offset t generalizing b with
  | case1 offset a b c d e rest ih =>
    simp only [Result.bind_eq_ok_iff] at h
    obtain ⟨u, hu, v, hv, w, hw, x, hx, tail, hTail, hPure⟩ := h
    obtain ⟨hu', rfl⟩ := inner_eq_ok hu
    obtain ⟨hv', rfl⟩ := inner_eq_ok hv
    obtain ⟨hw', rfl⟩ := inner_eq_ok hw
    obtain ⟨hx', rfl⟩ := inner_eq_ok hx
    cases hPure
    rw [encode_three hu' hv' hw' hx' rfl, ih hTail]
  | case2 offset =>
    cases h
    rfl
  | case3 offset group hLong hNe =>
    refine encode_of_decodeLast ?_ h
    match group, hLong with
    | [], _ | [_], _ | [_, _], _ | [_, _, _], _ | [_, _, _, _], _ => simp
    | a :: b :: c :: d :: e :: rest, hLong => exact absurd rfl (hLong a b c d e rest)

/-- **Each byte string has one written form.** -/
theorem decode_eq_ok_iff {t b : Bytes} : decode t = .ok b ↔ t = encode b := by
  constructor
  · intro h
    rw [decode] at h
    split at h
    · next hLast =>
      cases h
      exact List.getLast?_eq_none_iff.1 hLast
    · split at h
      · cases h
      · exact (encode_of_decodeFrom h).symm
  · rintro rfl
    exact decode_encode b

end SshKeys.Base64
