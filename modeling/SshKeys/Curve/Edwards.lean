import SshKeys.Modular
import SshKeys.Hash.Sha512

/-!
# Ed25519 public keys

The twisted Edwards curve of RFC 8032, as far as making a public key needs it:
the seed is hashed, clamped to a scalar, and the base point multiplied by it.
-/

namespace SshKeys.Ed25519

/-- The field has `2 ^ 255 - 19` elements. -/
def p : Nat := 1 <<< 255 - 19

/-- The coefficient `-121665 / 121666` of the curve. -/
def d : Nat := (p - 121665) * Modular.inversePrime 121666 p % p

/-- A point in extended coordinates: `x / z`, `y / z` and `t = x y / z`. -/
structure Point where
  x : Nat
  y : Nat
  z : Nat
  t : Nat

def zero : Point := ⟨0, 1, 1, 0⟩

def baseX : Nat := 0x216936D3CD6E53FEC0A4E231FDD6DC5C692CC7609525A7B2C9562D608F25D51A

def baseY : Nat := 0x6666666666666666666666666666666666666666666666666666666666666658

def base : Point := ⟨baseX, baseY, 1, baseX * baseY % p⟩

/-- The addition law, which has no exceptions on this curve. -/
def Point.add (P Q : Point) : Point :=
  let a := Modular.sub P.y P.x p * Modular.sub Q.y Q.x p % p
  let b := (P.y + P.x) * (Q.y + Q.x) % p
  let c := 2 * P.t * Q.t % p * d % p
  let e := 2 * P.z * Q.z % p
  let f := Modular.sub b a p
  let g := Modular.sub e c p
  let h := e + c
  let k := b + a
  ⟨f * g % p, h * k % p, g * h % p, f * k % p⟩

/-- `n` times a point, by doubling and adding. -/
def Point.mul (n : Nat) (P : Point) : Point :=
  if n = 0 then zero
  else
    let half := mul (n / 2) P
    let twice := half.add half
    if n % 2 = 1 then twice.add P else twice
termination_by n

/-- The `y` coordinate in 32 bytes, with the parity of `x` in the top bit. -/
def Point.encode (P : Point) : Bytes :=
  let w := Modular.inversePrime P.z p
  let x := P.x * w % p
  let y := P.y * w % p
  Bytes.ofNatLE 32 (y + (x % 2) <<< 255)

/-- The scalar of a seed: the low half of its hash with the three lowest bits and the highest
cleared and the second highest set. -/
def scalar (seed : Bytes) : Nat :=
  Bytes.toNatLE ((sha512 seed).take 32) % 1 <<< 254 / 8 * 8 + 1 <<< 254

/-- The 32-byte public key of a 32-byte seed. -/
def publicKey (seed : Bytes) : Bytes :=
  (Point.mul (scalar seed) base).encode

end SshKeys.Ed25519
