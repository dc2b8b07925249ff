import SshKeys.Entropy

/-!
# Parameters of the key derivation

The salt and the number of rounds a container declares, and the key material
they give for a passphrase.
-/

namespace SshKeys

structure KdfParameters where
  salt : Bytes
  rounds : UInt32
  deriving DecidableEq, Repr

namespace KdfParameters

/-- The name of the derivation inside a container, and that of its absence. -/
def bcryptName : String := "bcrypt"

def noneName : String := "none"

/-- The name that goes with what may be parameters. -/
def nameOf (kdf : Option KdfParameters) : String :=
  if kdf.isSome then bcryptName else noneName

def saltLength : Nat := 16

def defaultRounds : UInt32 := 16

/-- The bounds on what a container may ask for. -/
def maxRounds : Nat := 1024

def maxSaltLength : Nat := 64

/-- A fresh salt with the usual number of rounds. -/
def generate : Random KdfParameters := do
  let salt ← Random.bytes saltLength
  pure ⟨salt, defaultRounds⟩

/-- `length` bytes of key material. -/
def derive (k : KdfParameters) (passphrase : Bytes) (length : Nat) : Except Failure Bytes :=
  if passphrase = [] then .error (.kdfFailure .emptyPassphrase)
  else if k.rounds = 0 then .error (.kdfFailure .zeroRounds)
  else
    match Bcrypt.derive passphrase k.salt k.rounds.toNat length with
    | .ok b => .ok b
    | .error f => .error (.kdfFailure (.bcrypt f))

end KdfParameters

end SshKeys
