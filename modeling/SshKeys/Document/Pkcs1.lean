import SshKeys.Der
import SshKeys.Rsa

/-!
# RSA private keys as documents

RFC 8017, appendix A.1.2: a version, the five numbers of the key, and three
values that follow from them.  Reading ignores those three.
-/

namespace SshKeys.Pkcs1

def label : String := "RSA PRIVATE KEY"

/-- The numbers of a key with two factors. -/
def numbers : Der.Reader Rsa.Numbers :=
  Der.sequence do
    let version ← Der.natWithin 1
    guard (version = 0)
    let n ← Der.nat
    let e ← Der.nat
    let d ← Der.nat
    let p ← Der.nat
    let q ← Der.nat
    let _ ← Der.nat
    let _ ← Der.nat
    let _ ← Der.nat
    pure ⟨n, e, d, p, q⟩

/-- The key of a document, if it passes the checks. -/
def read? (document : Bytes) : Option Rsa.Numbers := do
  let k ← Der.whole numbers document
  guard (Rsa.check k).toBool
  pure k

/-- The document of a key; `qinv` is the inverse of the second factor modulo the first. -/
def write (k : Rsa.Numbers) (qinv : Nat) : Bytes :=
  Der.putSequence ([0, k.n, k.e, k.d, k.p, k.q, k.dp, k.dq, qinv].map Der.putNat)

end SshKeys.Pkcs1
