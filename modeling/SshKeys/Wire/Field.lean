import SshKeys.Bytes

/-!
# Fields of a binary message

Two kinds of field make up a message: a 32-bit number with its most significant
byte first, and a string, which is its length as such a number followed by its
bytes.  A reader takes a field off the front of the input; `Field.Fault` says
why it cannot.
-/

namespace SshKeys

namespace Field

/-- Why a field cannot be read. -/
inductive Fault where
  | short (need remain : Nat)
  | overrun (declared remain : Nat)
  | notUtf8
  deriving DecidableEq, Repr

def Fault.message : Fault → String
  | .short need remain => s!"need {need} bytes, {remain} remain"
  | .overrun declared remain => s!"declared length {declared} overruns the remaining {remain} bytes"
  | .notUtf8 => "string field is not UTF-8"

/-- A reader leaves what it did not consume, also when it fails. -/
abbrev Reader (α : Type) := ExceptT Fault (StateM Bytes) α

/-- The next `n` bytes.  Failing leaves the input as it was. -/
def bytes (n : Nat) : Reader Bytes := fun input =>
  if input.length < n then (.error (.short n input.length), input)
  else (.ok (input.take n), input.drop n)

/-- The word four bytes stand for. -/
def wordOf : Bytes → UInt32
  | [a, b, c, d] => Bytes.word32 a b c d
  | _ => 0

def word : Reader UInt32 := do
  let b ← bytes 4
  pure (wordOf b)

/-- A string.  A length that overruns the input is consumed, and nothing else. -/
def string : Reader Bytes := do
  let n ← word
  let rest ← get
  if rest.length < n.toNat then throw (.overrun n.toNat rest.length)
  bytes n.toNat

/-- A string that must be UTF-8; it is consumed also when it is not. -/
def text : Reader String := do
  let b ← string
  match Bytes.toString? b with
  | some s => pure s
  | none => throw .notUtf8

/-- A string has to be shorter than this for its length to be declared. -/
def lengthLimit : Nat := UInt32.size

/-- The written form of a string. -/
def putString (b : Bytes) : Bytes :=
  Bytes.be32 (UInt32.ofNat b.length) ++ b

def putText (s : String) : Bytes :=
  putString (Bytes.ofString s)

/-- How many bytes a string of `n` bytes is written in. -/
def stringLength (n : Nat) : Nat :=
  4 + n

theorem length_putString (b : Bytes) : (putString b).length = stringLength b.length := by
  simp only [putString, stringLength, Bytes.be32, List.length_append, List.length_cons,
    List.length_nil]

end Field

end SshKeys
