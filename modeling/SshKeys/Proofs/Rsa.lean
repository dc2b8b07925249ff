import Mathlib.Data.Nat.GCD.Basic
import SshKeys.Proofs.Integer
import SshKeys.Proofs.Steps
import SshKeys.Rsa

/-!
# Numbers that pass the checks

What `Rsa.check` makes sure of, and that factors without a common divisor have
the inverse that goes with a key.
-/

namespace SshKeys

namespace Modular

theorem euclid_fst (a b : Nat) (s t : Int) : (euclid a b s t).1 = Nat.gcd b a := by
  fun_induction euclid a b s t with
  | case1 a s t => rw [Nat.gcd_zero_left]
  | case2 a b s t h ih => rw [ih, ← Nat.gcd_rec]

theorem inverse?_lt {a m b : Nat} (hm : 0 < m) (h : inverse? a m = some b) : b < m := by
  rw [inverse?] at h
  simp only [Option.ite_none_right_eq_some, Option.some.injEq] at h
  obtain ⟨-, rfl⟩ := h
  have hNonneg := Int.emod_nonneg (euclid (a % m) m 1 0).2 (by omega : (m : Int) ≠ 0)
  have hLt := Int.emod_lt_of_pos (euclid (a % m) m 1 0).2 (by omega : (0 : Int) < m)
  omega

theorem exists_inverse? {a m : Nat} (hm : 0 < m) (h : Nat.Coprime m a) :
    ∃ b, inverse? a m = some b ∧ b < m := by
  have hGcd : (euclid (a % m) m 1 0).1 = 1 := by
    rw [euclid_fst, Nat.gcd_comm, ← Nat.gcd_rec]
    exact h
  have hInverse : inverse? a m = some ((euclid (a % m) m 1 0).2 % m).toNat := by
    rw [inverse?]
    exact if_pos hGcd
  exact ⟨_, hInverse, inverse?_lt hm hInverse⟩

end Modular

namespace Rsa

theorem check_eq_ok {k : Numbers} (h : check k = .ok ()) :
    1 < k.p ∧ 1 < k.q ∧ k.p * k.q = k.n := by
  obtain ⟨_, -, h⟩ := Result.bind_eq_ok_iff.1 h
  obtain ⟨hFactors, h⟩ := Result.refuse_eq_ok_iff.1 h
  obtain ⟨hModulus, -⟩ := Result.refuse_eq_ok_iff.1 h
  refine ⟨?_, ?_, of_not_not hModulus⟩ <;> omega

theorem exponent_le_of_checkPublic {n e : Nat} (h : checkPublic n e = .ok ()) :
    e ≤ maxExponent := by
  rw [checkPublic] at h
  split at h
  · cases h
  split at h
  · cases h
  split at h
  · cases h
  split at h
  · cases h
  split at h
  · cases h
  · next hLe => exact not_lt.1 hLe

theorem exponent_le_of_check {k : Numbers} (h : check k = .ok ()) : k.e ≤ maxExponent := by
  obtain ⟨_, hPublic, -⟩ := Result.bind_eq_ok_iff.1 h
  exact exponent_le_of_checkPublic hPublic

namespace Numbers

/-- **Factors without a common divisor have an inverse**, smaller than the first of them. -/
theorem exists_qinv? {k : Numbers} (hCheck : check k = .ok ()) (h : Nat.Coprime k.p k.q) :
    ∃ qinv, k.qinv? = some qinv ∧ qinv < k.p :=
  Modular.exists_inverse? (by have := (check_eq_ok hCheck).1; omega) h

theorem dp_lt {k : Numbers} (hCheck : check k = .ok ()) : k.dp < k.p := by
  have hp := (check_eq_ok hCheck).1
  have hMod := Nat.mod_lt k.d (by omega : 0 < k.p - 1)
  rw [dp]
  omega

theorem dq_lt {k : Numbers} (hCheck : check k = .ok ()) : k.dq < k.q := by
  have hq := (check_eq_ok hCheck).2.1
  have hMod := Nat.mod_lt k.d (by omega : 0 < k.q - 1)
  rw [dq]
  omega

/-- Each number can be written as an integer of a key. -/
structure Fits (k : Numbers) (limit : Nat) : Prop where
  n : (Integer.ofNat k.n).length ≤ limit
  e : (Integer.ofNat k.e).length ≤ limit
  d : (Integer.ofNat k.d).length ≤ limit
  p : (Integer.ofNat k.p).length ≤ limit
  q : (Integer.ofNat k.q).length ≤ limit

theorem Fits.mono {k : Numbers} {limit bound : Nat} (h : k.Fits limit) (hBound : limit ≤ bound) :
    k.Fits bound :=
  ⟨h.n.trans hBound, h.e.trans hBound, h.d.trans hBound, h.p.trans hBound, h.q.trans hBound⟩

end Numbers

end Rsa

end SshKeys
