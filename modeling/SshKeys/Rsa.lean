import SshKeys.Modular

/-!
# RSA numbers

The conditions under which five numbers are taken for an RSA key, the values
that speed up its use, and the search for the primes of a new one.
-/

namespace SshKeys.Rsa

/-- Modulus, exponents and the two factors of a key. -/
structure Numbers where
  n : Nat
  e : Nat
  d : Nat
  p : Nat
  q : Nat
  deriving DecidableEq, Repr

inductive Fault where
  | modulus
  | exponent
  | exponentTooSmall
  | exponentTooLarge
  | prime
  deriving DecidableEq, Repr

def Fault.message : Fault → String
  | .modulus => "invalid modulus"
  | .exponent => "invalid exponent"
  | .exponentTooSmall => "public exponent too small"
  | .exponentTooLarge => "public exponent too large"
  | .prime => "invalid prime value"

/-- Public exponents have at most 33 bits. -/
def maxExponent : Nat := 1 <<< 33 - 1

def checkPublic (n e : Nat) : Except Fault Unit :=
  if UInt64.size ≤ e then .error .exponentTooLarge
  else if n ≤ e ∨ n % 2 = 0 then .error .modulus
  else if e % 2 = 0 then .error .exponent
  else if e < 2 then .error .exponentTooSmall
  else if maxExponent < e then .error .exponentTooLarge
  else .ok ()

/-- Whether the exponents undo each other modulo `p - 1`. -/
def inverseModPred (k : Numbers) (p : Nat) : Bool :=
  k.e * k.d % (p - 1) = 1

/-- Accepts a key whose factors multiply to the modulus and whose exponents fit them.  Nothing is
factored and no factor is tested for being prime. -/
def check (k : Numbers) : Except Fault Unit := do
  checkPublic k.n k.e
  if k.p ≤ 1 ∨ k.q ≤ 1 then throw .prime
  if k.p * k.q ≠ k.n then throw .modulus
  if !inverseModPred k k.p || !inverseModPred k k.q then throw .exponent

namespace Numbers

/-- The private exponent for the first factor. -/
def dp (k : Numbers) : Nat := k.d % (k.p - 1)

/-- The private exponent for the second factor. -/
def dq (k : Numbers) : Nat := k.d % (k.q - 1)

/-- The inverse of the second factor modulo the first. -/
def qinv? (k : Numbers) : Option Nat := Modular.inverse? k.q k.p

end Numbers

/-! ## New keys -/

/-- The primes below one thousand. -/
def smallPrimes : List Nat :=
  (List.range 1000).filter fun n => 2 ≤ n ∧ (List.range n).all fun d => d < 2 ∨ n % d ≠ 0

/-- How often two divides `n`, and the odd factor. -/
def twos (n : Nat) : Nat × Nat :=
  if _h : 0 < n ∧ n % 2 = 0 then
    let (s, odd) := twos (n / 2)
    (s + 1, odd)
  else (0, n)
termination_by n
decreasing_by omega

/-- Whether squaring `x` fewer than `s` times modulo `n` gives `n - 1`. -/
def reachesMinusOne (n : Nat) : (s : Nat) → (x : Nat) → Bool
  | 0, _ => false
  | s + 1, x => x = n - 1 || reachesMinusOne n s (x * x % n)

/-- The test of Miller and Rabin to one base. -/
def passes (n base : Nat) : Bool :=
  let (s, odd) := twos (n - 1)
  let x := Modular.pow base odd n
  x = 1 || reachesMinusOne n s x

/-- Whether `n` is taken for a prime: no small factor, and twenty passed tests. -/
def isProbablePrime (n : Nat) : Bool :=
  smallPrimes.all (fun p => n % p ≠ 0 || n = p) && (smallPrimes.take 20).all (passes n)

/-- The first candidate from `n` on, in steps of two. -/
def search (suitable : Nat → Bool) : (fuel : Nat) → (n : Nat) → Option Nat
  | 0, _ => none
  | fuel + 1, n => if suitable n then some n else search suitable fuel (n + 2)

/-- The public exponent of new keys. -/
def publicExponent : Nat := 65537

/-- A number of `bits` bits that is odd and has its two highest bits set. -/
def shape (bits n : Nat) : Nat :=
  (n % 1 <<< (bits - 2) + 3 <<< (bits - 2)) ||| 1

/-- The next prime from a random number on that differs from `other`. -/
def primeFrom (bits other start : Nat) : Option Nat :=
  search
    (fun n => n ≠ other && n % publicExponent ≠ 1 && isProbablePrime n)
    (64 * bits) (shape bits start)

/-- The key of two random numbers. -/
def ofRandom (bits first second : Nat) : Option Numbers := do
  let p ← primeFrom (bits / 2) 0 first
  let q ← primeFrom (bits - bits / 2) p second
  let d ← Modular.inverse? publicExponent ((p - 1) * (q - 1))
  pure ⟨p * q, publicExponent, d, p, q⟩

end SshKeys.Rsa
