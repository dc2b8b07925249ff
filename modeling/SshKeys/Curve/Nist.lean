import SshKeys.Modular
import SshKeys.Bytes

/-!
# The NIST prime curves

P-256, P-384 and P-521 of FIPS 186, `y² = x³ - 3 x + b` over a prime field, as
far as making a public key needs them: multiples of the base point.
-/

namespace SshKeys

inductive NistCurve where
  | p256
  | p384
  | p521
  deriving DecidableEq, Repr

namespace NistCurve

/-- The number of elements of the field. -/
def prime : NistCurve → Nat
  | p256 => 1 <<< 256 - 1 <<< 224 + 1 <<< 192 + 1 <<< 96 - 1
  | p384 => 1 <<< 384 - 1 <<< 128 - 1 <<< 96 + 1 <<< 32 - 1
  | p521 => 1 <<< 521 - 1

/-- The number of multiples of the base point. -/
def order : NistCurve → Nat
  | p256 => 0xffffffff00000000ffffffffffffffffbce6faada7179e84f3b9cac2fc632551
  | p384 => 0xffffffffffffffffffffffffffffffffffffffffffffffffc7634d81f4372ddf581a0db248b0a77aecec196accc52973
  | p521 => 0x1fffffffffffffffffffffffffffffffffffffffffffffffffffffffffffffffffa51868783bf2f966b7fcc0148f709a5d03bb5c9b8899c47aebb6fb71e91386409

/-- The coordinates of the base point. -/
def base : NistCurve → Nat × Nat
  | p256 =>
    (0x6b17d1f2e12c4247f8bce6e563a440f277037d812deb33a0f4a13945d898c296,
      0x4fe342e2fe1a7f9b8ee7eb4a7c0f9e162bce33576b315ececbb6406837bf51f5)
  | p384 =>
    (0xaa87ca22be8b05378eb1c71ef320ad746e1d3b628ba79b9859f741e082542a385502f25dbf55296c3a545e3872760ab7,
      0x3617de4a96262c6f5d9e98bf9292dc29f8f41dbd289a147ce9da3113b5f0b8c00a60b1ce1d7e819d7a431d7c90ea0e5f)
  | p521 =>
    (0xc6858e06b70404e9cd9e3ecb662395b4429c648139053fb521f828af606b4d3dbaa14b5e77efe75928fe1dc127a2ffa8de3348b3c1856a429bf97e7e31c2e5bd66,
      0x11839296a789a3bc0045c8a5fb42c7d1bd998f54449579b446817afbd17273e662c97ee72995ef42640c550b9013fad0761353c7086a272c24088be94769fd16650)

/-- Bytes in a coordinate or a scalar. -/
def fieldSize : NistCurve → Nat
  | p256 => 32
  | p384 => 48
  | p521 => 66

def bits : NistCurve → Nat
  | p256 => 256
  | p384 => 384
  | p521 => 521

/-- A point in Jacobian coordinates, `x / z²` and `y / z³`; `z` is zero at infinity. -/
structure Point where
  x : Nat
  y : Nat
  z : Nat

def infinity : Point := ⟨1, 1, 0⟩

def Point.double (p : Nat) (P : Point) : Point :=
  let delta := P.z * P.z % p
  let gamma := P.y * P.y % p
  let beta := P.x * gamma % p
  let alpha := 3 * Modular.sub P.x delta p * (P.x + delta) % p
  let x := Modular.sub (alpha * alpha % p) (8 * beta % p) p
  let z := Modular.sub ((P.y + P.z) * (P.y + P.z) % p) ((gamma + delta) % p) p
  let y := Modular.sub (alpha * Modular.sub (4 * beta % p) x p % p) (8 * gamma * gamma % p) p
  ⟨x, y, z⟩

def Point.add (p : Nat) (P Q : Point) : Point :=
  if P.z = 0 then Q
  else if Q.z = 0 then P
  else
    let z1 := P.z * P.z % p
    let z2 := Q.z * Q.z % p
    let u1 := P.x * z2 % p
    let u2 := Q.x * z1 % p
    let s1 := P.y * Q.z % p * z2 % p
    let s2 := Q.y * P.z % p * z1 % p
    let h := Modular.sub u2 u1 p
    let r := Modular.sub s2 s1 p
    if h = 0 then if r = 0 then P.double p else infinity
    else
      let hh := h * h % p
      let hhh := h * hh % p
      let v := u1 * hh % p
      let x := Modular.sub (r * r % p) ((hhh + 2 * v) % p) p
      let y := Modular.sub (r * Modular.sub v x p % p) (s1 * hhh % p) p
      ⟨x, y, h * P.z % p * Q.z % p⟩

/-- `n` times a point, by doubling and adding. -/
def Point.mul (p n : Nat) (P : Point) : Point :=
  if n = 0 then infinity
  else
    let half := mul p (n / 2) P
    let twice := half.double p
    if n % 2 = 1 then twice.add p P else twice
termination_by n

/-- The coordinates of `d` times the base point. -/
def multiple (c : NistCurve) (d : Nat) : Nat × Nat :=
  let (x, y) := c.base
  let P := Point.mul c.prime d ⟨x, y, 1⟩
  let w := Modular.inversePrime P.z c.prime
  let ww := w * w % c.prime
  (P.x * ww % c.prime, P.y * ww % c.prime * w % c.prime)

/-- `d` times the base point in uncompressed form: the byte four and both coordinates. -/
def publicPoint (c : NistCurve) (d : Nat) : Bytes :=
  let (x, y) := c.multiple d
  4 :: Bytes.ofNat c.fieldSize x ++ Bytes.ofNat c.fieldSize y

/-- `d` times the base point in compressed form: two or three, by the parity of `y`, and `x`. -/
def compressedPoint (c : NistCurve) (d : Nat) : Bytes :=
  let (x, y) := c.multiple d
  UInt8.ofNat (2 + y % 2) :: Bytes.ofNat c.fieldSize x

/-- Whether `d` is the private scalar of a key on the curve. -/
def IsScalar (c : NistCurve) (d : Nat) : Prop :=
  1 ≤ d ∧ d < c.order

instance (c : NistCurve) (d : Nat) : Decidable (c.IsScalar d) :=
  inferInstanceAs (Decidable (_ ∧ _))

end NistCurve

end SshKeys
