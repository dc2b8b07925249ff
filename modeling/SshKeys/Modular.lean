/-!
# Arithmetic modulo a number

Powers and inverses in the ring of remainders.
-/

namespace SshKeys.Modular

/-- `b ^ e % m` by repeated squaring. -/
def pow (b e m : Nat) : Nat :=
  if e = 0 then 1 % m
  else
    let square := pow (b * b % m) (e / 2) m
    if e % 2 = 1 then square * b % m else square
termination_by e

/-- Subtraction of remainders: `a - b` modulo `m`, for `b` at most `m`. -/
@[inline] def sub (a b m : Nat) : Nat :=
  (a + m - b) % m

/-- Euclid's algorithm on `a` and `b`: their greatest common divisor, and the coefficient it has
at the number the remainders started from. -/
def euclid (a b : Nat) (s t : Int) : Nat × Int :=
  if b = 0 then (a, s) else euclid b (a % b) t (s - (a / b : Nat) * t)
termination_by b
decreasing_by exact Nat.mod_lt _ (by omega)

/-- The inverse of `a` modulo `m`, if the two share no factor. -/
def inverse? (a m : Nat) : Option Nat :=
  let (g, s) := euclid (a % m) m 1 0
  if g = 1 then some (s % m).toNat else none

/-- The inverse modulo a prime, by Fermat's theorem; zero has zero. -/
def inversePrime (a p : Nat) : Nat :=
  pow a (p - 2) p

end SshKeys.Modular
