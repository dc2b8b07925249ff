import SshKeys.Bytes

/-!
# Buffers for secrets

Bytes that diagnostic lines do not show, and that can be wiped.
-/

namespace SshKeys

structure SecretBytes where
  data : Bytes
  deriving DecidableEq

namespace SecretBytes

def zeroed (n : Nat) : SecretBytes :=
  ⟨Bytes.zeros n⟩

def length (s : SecretBytes) : Nat :=
  s.data.length

def isEmpty (s : SecretBytes) : Bool :=
  s.data.isEmpty

/-- The bytes before a place and those from it on. -/
def splitAt (s : SecretBytes) (n : Nat) : Bytes × Bytes :=
  s.data.splitAt n

/-- Replaces bytes from a place on; the length stays the same. -/
def write (s : SecretBytes) (n : Nat) (b : Bytes) : SecretBytes :=
  ⟨(s.data.take n ++ b ++ s.data.drop (n + b.length)).take s.length⟩

/-- Nothing is left of a wiped buffer. -/
def wipe (_ : SecretBytes) : SecretBytes :=
  ⟨[]⟩

def describe (s : SecretBytes) : String :=
  "SecureBytes \x7b len: " ++ toString s.length ++ ", data: \"[REDACTED]\" \x7d"

end SecretBytes

end SshKeys
