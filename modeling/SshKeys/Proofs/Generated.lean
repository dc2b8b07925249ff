import SshKeys.Proofs.LoadedKeys

/-!
# New keys

`Random.Gives r P`: `r` takes what it draws off the front of the source, and what
it gives satisfies `P`.  `PrivateKey.gives_generate`: **a new key is one that the
readers of key material can give**, of every algorithm and size and whatever is
drawn.  For RSA that is a bound on the search for primes (`Rsa.fits_of_ofRandom`).
-/

namespace SshKeys

variable {α β : Type}

/-! ## What is drawn -/

namespace Random

/-- What is drawn comes off the front of the source, and what is given satisfies `P`. -/
def Gives (r : Random α) (P : α → Prop) : Prop :=
  ∀ source a rest, r source = .ok (a, rest) → rest <:+ source ∧ P a

variable {r : Random α} {f : α → Random β} {P : α → Prop} {Q : β → Prop}

theorem Gives.bind (hr : r.Gives P) (hf : ∀ a, P a → (f a).Gives Q) : Gives (r >>= f) Q := by
  intro source b rest h
  obtain ⟨a, t, ha, hb⟩ := StateExcept.bind_eq_ok_iff.1 h
  obtain ⟨hFirst, hP⟩ := hr source a t ha
  obtain ⟨hSecond, hQ⟩ := hf a hP t b rest hb
  exact ⟨hSecond.trans hFirst, hQ⟩

theorem gives_pure {a : α} (h : P a) : Gives (pure a) P := by
  intro source b rest hEq
  cases hEq
  exact ⟨List.suffix_rfl, h⟩

theorem gives_get : Gives (MonadState.get : Random Bytes) fun _ => True := by
  intro source b rest h
  cases h
  exact ⟨List.suffix_rfl, trivial⟩

theorem gives_throw (e : Failure) : Gives (throw e : Random α) P := by
  intro source a rest h
  cases h

theorem gives_lift {x : Except Failure α} (h : ∀ a, x = .ok a → P a) :
    Gives (liftM x : Random α) P := by
  intro source a rest hEq
  obtain ⟨hx, rfl⟩ := StateExcept.lift_eq_ok_iff.1 hEq
  exact ⟨List.suffix_rfl, h a hx⟩

theorem gives_bytes (n : Nat) : Gives (bytes n) fun b => b.length = n := by
  intro source b rest h
  obtain ⟨hLe, rfl, rfl⟩ := bytes_eq_ok_iff.1 h
  exact ⟨List.drop_suffix n source, List.length_take_of_le hLe⟩

end Random

open SshKeys.Random (gives_pure gives_get gives_throw gives_lift gives_bytes)

/-! ## Curves -/

/-- Whatever the number of candidates, the one that is given is a scalar. -/
theorem NistCurve.gives_randomScalar (curve : NistCurve) (fuel : Nat) :
    (curve.randomScalar fuel).Gives curve.IsScalar := by
  induction fuel with
  | zero => exact gives_throw _
  | succ fuel ih =>
    refine (gives_bytes curve.fieldSize).bind fun b _ => ?_
    by_cases hScalar : curve.IsScalar (Bytes.toNat b)
    · simp only [if_pos hScalar]
      exact gives_pure hScalar
    · simp only [if_neg hScalar]
      exact ih

namespace KeyPair

theorem gives_generateOn (curve : NistCurve) : (generateOn curve).Gives KeyPair.Valid := by
  refine gives_get.bind fun source _ => ?_
  refine (curve.gives_randomScalar (source.length + 1)).bind fun d hScalar => ?_
  exact gives_pure ((consistent_ofScalar hScalar).valid trivial)

end KeyPair

/-! ## RSA numbers -/

namespace Rsa

theorem search_bounds {suitable : Nat → Bool} {fuel n m : Nat}
    (h : search suitable fuel n = some m) : n ≤ m ∧ m < n + 2 * fuel := by
  induction fuel generalizing n with
  | zero => cases h
  | succ fuel ih =>
    rw [search] at h
    split at h
    · cases h
      omega
    · obtain ⟨hLow, hHigh⟩ := ih h
      omega

/-- A candidate has its two highest bits set and no more bits than asked for. -/
theorem shape_bounds {bits : Nat} (h : 2 ≤ bits) (n : Nat) :
    2 < shape bits n ∧ shape bits n < 2 ^ bits := by
  obtain ⟨k, rfl⟩ : ∃ k, bits = k + 2 := ⟨bits - 2, by omega⟩
  have hPos : 0 < 2 ^ k := Nat.two_pow_pos k
  have hMod := Nat.mod_lt n hPos
  have hPow : 2 ^ (k + 2) = 4 * 2 ^ k := by
    rw [Nat.pow_add]
    omega
  rw [shape, Nat.add_sub_cancel, Nat.shiftLeft_eq, Nat.shiftLeft_eq, Nat.one_mul]
  constructor
  · have hOr : n % 2 ^ k + 3 * 2 ^ k ≤ (n % 2 ^ k + 3 * 2 ^ k) ||| 1 := Nat.left_le_or
    omega
  · refine Nat.or_lt_two_pow ?_ ?_
    · omega
    · omega

theorem primeFrom_bounds {bits other start p : Nat} (h : 2 ≤ bits)
    (hPrime : primeFrom bits other start = some p) : 2 < p ∧ p < 2 ^ (bits + 8) := by
  obtain ⟨hLow, hHigh⟩ := search_bounds hPrime
  obtain ⟨hTwo, hShape⟩ := shape_bounds h start
  have hBits : bits < 2 ^ bits := Nat.lt_two_pow_self
  rw [Nat.pow_add]
  omega

/-- The numbers of a new key take at most three bytes more than its size asks for. -/
theorem fits_of_ofRandom {bits first second : Nat} {k : Numbers} (hBits : 4 ≤ bits)
    (h : ofRandom bits first second = some k) : k.Fits (bits / 8 + 3) ∧ 0 < k.p := by
  simp only [ofRandom, Option.bind_eq_bind, Option.bind_eq_some_iff, Option.pure_def,
    Option.some.injEq] at h
  obtain ⟨p, hp, q, hq, d, hd, rfl⟩ := h
  obtain ⟨hLow, hHigh⟩ := primeFrom_bounds (by omega) hp
  obtain ⟨hLow', hHigh'⟩ := primeFrom_bounds (by omega) hq
  have hModulus : p * q < 2 ^ (bits + 16) := by
    calc p * q < 2 ^ (bits / 2 + 8) * 2 ^ (bits - bits / 2 + 8) :=
          Nat.mul_lt_mul'' hHigh hHigh'
      _ = 2 ^ (bits + 16) := by
          rw [← Nat.pow_add]
          congr 1
          omega
  have hLength {m : Nat} (hm : m < 2 ^ (bits + 16)) :
      (Integer.ofNat m).length ≤ bits / 8 + 3 := by
    refine Integer.length_ofNat_le (w := bits / 8 + 2) ?_
    calc m < 2 ^ (bits + 16) := hm
      _ ≤ 2 ^ (7 + 8 * (bits / 8 + 2)) := Nat.pow_le_pow_right (by decide) (by omega)
      _ = 128 * 256 ^ (bits / 8 + 2) := by rw [Nat.pow_add, Nat.pow_mul]
  have hExponent : publicExponent < 2 ^ (bits + 16) :=
    (by decide : publicExponent < 2 ^ 17).trans_le (Nat.pow_le_pow_right (by decide) (by omega))
  have hTotient : (p - 1) * (q - 1) ≤ p * q := Nat.mul_le_mul (by omega) (by omega)
  have hPrivate : d < (p - 1) * (q - 1) :=
    Modular.inverse?_lt (Nat.mul_pos (by omega) (by omega)) hd
  have hFirst : p ≤ p * q := Nat.le_mul_of_pos_right p (by omega)
  have hSecond : q ≤ p * q := Nat.le_mul_of_pos_left q (by omega)
  exact ⟨⟨hLength hModulus, hLength hExponent, hLength (m := d) (by omega),
    hLength (m := p) (by omega), hLength (m := q) (by omega)⟩, (by omega : 0 < p)⟩

end Rsa

/-! ## Keys -/

namespace KeyPair

/-- Numbers that fit make a pair that a reader can give. -/
theorem valid_of_ofNumbers? {m : Rsa.Numbers} {pair : RsaPair} (hFits : m.Fits KeyReader.maxLength)
    (hp : 0 < m.p) (h : RsaPair.ofNumbers? m = some pair) : (rsa pair).Valid := by
  have hCanonical := RsaPair.canonical_of_ofNumbers? h
  obtain ⟨qinv, hInverse, hPair⟩ := Option.bind_eq_some_iff.1 h
  cases hPair
  have hQinv := Integer.length_ofNat_mono (Modular.inverse?_lt hp hInverse).le
  exact valid_rsa hCanonical
    ⟨hFits.n, hFits.e, hFits.d, hQinv.trans hFits.p, hFits.p, hFits.q⟩

theorem gives_generateRsa {bits : Nat} (hMin : minRsaBits ≤ bits) (hMax : bits ≤ maxRsaBits) :
    (generateRsa bits).Gives KeyPair.Valid := by
  have hLow : minRsaBits = 2048 := rfl
  have hHigh : maxRsaBits = 16384 := rfl
  have hLimit : KeyReader.maxLength = 1048575 := rfl
  refine (gives_bytes (bits / 16 + 1)).bind fun first _ => ?_
  refine (gives_bytes (bits / 16 + 1)).bind fun second _ => ?_
  simp only
  split
  · next pair hPair =>
    obtain ⟨m, hRandom, hNumbers⟩ := Option.bind_eq_some_iff.1 hPair
    obtain ⟨hFits, hp⟩ := Rsa.fits_of_ofRandom (by omega) hRandom
    exact gives_pure (valid_of_ofNumbers? (hFits.mono (by omega)) hp hNumbers)
  · exact gives_throw _

/-- The limits on the size of a key are there for RSA alone. -/
theorem gives_generate (algorithm : KeyAlgorithm) (rsaBits : Nat) :
    (generate algorithm rsaBits).Gives KeyPair.Valid := by
  cases algorithm with
  | rsa =>
    rw [generate]
    split
    · exact gives_throw _
    · next hSize =>
      rw [not_or, not_lt, not_lt] at hSize
      exact gives_generateRsa hSize.1 hSize.2
  | ed25519 =>
    refine (gives_bytes 32).bind fun seed hSeed => gives_pure ?_
    have hConsistent : (ofSeed seed).Consistent := ⟨hSeed, rfl⟩
    exact hConsistent.valid trivial
  | ecdsaP256 => exact gives_generateOn .p256
  | ecdsaP384 => exact gives_generateOn .p384
  | ecdsaP521 => exact gives_generateOn .p521

end KeyPair

/-- **A new key is one that readers can give**, and has no comment. -/
theorem PrivateKey.gives_generate (algorithm : KeyAlgorithm) (rsaBits : Nat) :
    (generate algorithm rsaBits).Gives fun k => k.pair.Valid ∧ k.comment = "" := by
  refine (KeyPair.gives_generate algorithm rsaBits).bind fun pair hPair => ?_
  refine gives_lift fun k hKey => ?_
  rw [ofPair_eq_ok hKey]
  exact ⟨hPair, rfl⟩

end SshKeys
