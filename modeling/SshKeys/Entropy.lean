import SshKeys.Failure

/-!
# Random bytes

What an operation draws from the source of randomness is threaded through it as
the list of bytes that are still to come.  A request for more than there are
takes nothing.
-/

namespace SshKeys

abbrev Random (α : Type) := StateT Bytes (Except Failure) α

namespace Random

/-- The source has too few bytes left. -/
def exhausted {α : Type} : Random α :=
  throw (.randomSourceFailure "random source exhausted")

/-- The next `n` bytes of the source. -/
def bytes (n : Nat) : Random Bytes := fun source =>
  if source.length < n then exhausted source
  else .ok (source.take n, source.drop n)

def word : Random UInt32 := do
  let b ← bytes 4
  pure (Field.wordOf b)

end Random

end SshKeys
