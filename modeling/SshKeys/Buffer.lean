import SshKeys.Failure

/-!
# Buffers for secrets

What holds secret bytes is written piece by piece into a buffer.  A buffer
without room for a piece moves, and what it held stays behind where nothing wipes
it; so all the room is asked for before anything is written.  The allocator may
refuse to give it.
-/

namespace SshKeys

/-- A buffer that is written from its front. -/
structure Buffer (α : Type) where
  /-- How much it can hold where it is. -/
  room : Nat
  content : Array α
  /-- What it held at each place that it moved away from, the last one first. -/
  leftBehind : List (Array α)
  deriving DecidableEq, Repr

namespace Buffer

variable {α : Type}

/-- An empty buffer with room for `n` elements. -/
def reserve (n : Nat) : Buffer α :=
  ⟨n, #[], []⟩

/-- Writes a piece behind the content.  Where there is no room for it, the buffer first moves to
twice the room, or to what it needs if that is more. -/
def append (b : Buffer α) (piece : List α) : Buffer α :=
  if b.content.size + piece.length ≤ b.room then { b with content := b.content ++ piece }
  else
    ⟨max (2 * b.room) (b.content.size + piece.length), b.content ++ piece,
      b.content :: b.leftBehind⟩

/-- What becomes of a buffer with room for `n` elements when pieces are written to it. -/
def writeAll (n : Nat) (pieces : List (List α)) : Buffer α :=
  pieces.foldl append (reserve n)

/-- What was written to it. -/
def written (b : Buffer α) : List α :=
  b.content.toList

end Buffer

/-- What the allocator answers when a writer asks for room: nothing if it gives so many bytes, and
else why not.  Requests are told apart by what the room is for. -/
abbrev Allocator := (purpose : String) → (n : Nat) → Option String

namespace Allocator

/-- The allocator that refuses nothing. -/
def unlimited : Allocator := fun _ _ => none

/-- The failure of a request that is refused. -/
def refusal (purpose : String) (n : Nat) (reason : String) : Failure :=
  .allocationFailure s!"{purpose} of {n} bytes: {reason}"

/-- Asks for room for `n` bytes. -/
def ask (memory : Allocator) (purpose : String) (n : Nat) : Except Failure Unit :=
  match memory purpose n with
  | none => .ok ()
  | some reason => .error (refusal purpose n reason)

end Allocator

/-- Refuses a string whose length cannot be declared. -/
def Field.checkLength (n : Nat) : Except Failure Unit :=
  if lengthLimit ≤ n then .error (.encodingFailure (.fieldLength n)) else .ok ()

end SshKeys
