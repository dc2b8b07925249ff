import SshKeys.Curve.Nist
import SshKeys.Der

/-!
# Private scalars as documents

SEC 1, appendix C.4: a version, the scalar, and optionally the name of the curve
and the public point.  The document does not have to say which curve it is for.
-/

namespace SshKeys

structure Sec1 where
  scalar : Bytes
  point : Option Bytes
  deriving DecidableEq

namespace Sec1

def label : String := "EC PRIVATE KEY"

/-- The bytes of a bit string that may be missing. -/
def wholeBits? : Option Bytes → Option (Option Bytes)
  | none => some none
  | some c => (Der.wholeBytes? c).map some

def reader : Der.Reader Sec1 :=
  Der.sequence do
    let version ← Der.natWithin 1
    guard (version = 1)
    let scalar ← Der.octets
    let _ ← Der.explicitField 0 Der.objectId
    let point ← Der.explicitField 1 (Der.content Der.bitStringTag)
    let point ← (wholeBits? point : Option _)
    pure ⟨scalar, point⟩

def read? (document : Bytes) : Option Sec1 :=
  Der.whole reader document

/-- The fewest bytes a scalar may have. -/
def minScalar : Nat := 24

/-- The private scalar the document holds for a curve, if the public point fits it. -/
def scalarOn? (s : Sec1) (curve : NistCurve) : Option Nat := do
  guard (minScalar ≤ s.scalar.length ∧ s.scalar.length ≤ curve.fieldSize)
  let d := Bytes.toNat s.scalar
  guard (curve.IsScalar d)
  match s.point with
  | none => pure d
  | some point =>
    guard (point = curve.publicPoint d ∨ point = curve.compressedPoint d)
    pure d

/-- The document of a scalar with its public point, without the name of the curve. -/
def write (curve : NistCurve) (d : Nat) : Bytes :=
  Der.putSequence
    [Der.putNat 1, Der.putOctets (Bytes.ofNat curve.fieldSize d),
      Der.put (Der.explicitTag 1) (Der.put Der.bitStringTag (Der.bits (curve.publicPoint d)))]

end Sec1

end SshKeys
