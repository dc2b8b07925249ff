import SshKeys.Curve.Nist

/-!
# Names of key algorithms

The algorithms with names of their own, and those anyone may define under a name
of the form `name@domain`.
-/

namespace SshKeys

namespace NistCurve

def all : List NistCurve := [p256, p384, p521]

def name : NistCurve → String
  | p256 => "nistp256"
  | p384 => "nistp384"
  | p521 => "nistp521"

def ofName? (s : String) : Option NistCurve :=
  all.find? (·.name = s)

end NistCurve

inductive Algorithm where
  | dsa
  | ecdsa (curve : NistCurve)
  | ed25519
  | rsa
  | rsaSha256
  | rsaSha512
  | skEcdsa
  | skEd25519
  | other (name : String)
  deriving DecidableEq, Repr

namespace Algorithm

/-- The algorithms with names of their own. -/
def known : List Algorithm :=
  [dsa, ecdsa .p256, ecdsa .p384, ecdsa .p521, ed25519, rsa, rsaSha256, rsaSha512, skEcdsa,
    skEd25519]

def name : Algorithm → String
  | dsa => "ssh-dss"
  | ecdsa .p256 => "ecdsa-sha2-nistp256"
  | ecdsa .p384 => "ecdsa-sha2-nistp384"
  | ecdsa .p521 => "ecdsa-sha2-nistp521"
  | ed25519 => "ssh-ed25519"
  | rsa => "ssh-rsa"
  | rsaSha256 => "rsa-sha2-256"
  | rsaSha512 => "rsa-sha2-512"
  | skEcdsa => "sk-ecdsa-sha2-nistp256@openssh.com"
  | skEd25519 => "sk-ssh-ed25519@openssh.com"
  | other s => s

/-- At most 64 characters of ASCII with one `@` that is neither first nor last. -/
def isPrivateName (s : String) : Bool :=
  let cs := s.toList
  let user := cs.takeWhile (· ≠ '@')
  let domain := cs.drop (user.length + 1)
  cs.all (·.toNat < 128) && cs.length ≤ 64 && !user.isEmpty && !domain.isEmpty
    && !domain.contains '@'

def ofName? (s : String) : Option Algorithm :=
  match known.find? (·.name = s) with
  | some a => some a
  | none => if isPrivateName s then some (other s) else none

end Algorithm

end SshKeys
