import SshKeys.Bytes

/-!
# Reading key material

Keys are made of the same fields as any message, but their reader is stricter:
no field may declare a megabyte or more, names come from fixed lists, and
integers have one form only.  A string opens a level of its own, in which no
more than the declared length can be read; what is left unread there is read as
what follows.  `KeyReader.take` is the one place where input is consumed.
-/

namespace SshKeys

/-- Why key material is refused. -/
inductive KeyFault where
  | overflow
  | length
  | encoding
  | label (name : String)
  | format
  | crypto
  | algorithm
  | point
  | armor
  | trailing (count : Nat)
  | mismatch
  | alreadyDecrypted
  deriving DecidableEq, Repr

def KeyFault.message : KeyFault → String
  | .overflow => "internal overflow error"
  | .length => "length invalid"
  | .encoding => "character encoding invalid"
  | .label name => s!"invalid label: '{name}'"
  | .format => "format encoding error"
  | .crypto => "cryptographic error"
  | .algorithm => "unknown algorithm"
  | .point => "ECDSA encoding error: elliptic curve point encoding error"
  | .armor => "PEM error"
  | .trailing count => s!"unexpected trailing data at end of message ({count} bytes)"
  | .mismatch => "public key is incorrect"
  | .alreadyDecrypted => "private key is already decrypted"

/-- Where key material is read from. -/
inductive KeySource where
  | memory
  /-- Armored text, decoded while it is read; a blank line may stand behind its base64. -/
  | armor (blankEnd : Bool)
  deriving DecidableEq, Repr

/-- What is left to read. -/
structure KeyInput where
  source : KeySource
  bytes : Bytes
  /-- How many bytes follow that cannot be decoded. -/
  unreadable : Nat := 0
  /-- How much the strings being read may still take, the innermost first. -/
  limits : List Nat := []

namespace KeyInput

def ofBytes (b : Bytes) : KeyInput :=
  { source := .memory, bytes := b }

/-- How much is left of the innermost string, as far as its length tells. -/
def remaining (i : KeyInput) : Nat :=
  i.limits.headD (i.bytes.length + i.unreadable)

/-- Whether armored text has been read to its very end.  Nothing can be read from it then, not
even no bytes. -/
def isFinished (i : KeyInput) : Bool :=
  i.source = .armor false && i.bytes = [] && i.unreadable = 0

/-- The fault of reading more than there is. -/
def shortage (i : KeyInput) : KeyFault :=
  match i.source with
  | .memory => .length
  | .armor _ => .armor

def skip (i : KeyInput) (n : Nat) : KeyInput :=
  { i with bytes := i.bytes.drop n, limits := i.limits.map (· - n) }

end KeyInput

abbrev KeyReader (α : Type) := StateT KeyInput (Except KeyFault) α

namespace KeyReader

def remaining : KeyReader Nat := do
  pure (← get).remaining

/-- The next `n` bytes. -/
def take (n : Nat) : KeyReader Bytes := fun i =>
  if i.limits.any (· < n) then .error .length
  else if i.bytes.length < n ∨ i.isFinished then .error i.shortage
  else .ok (i.bytes.take n, i.skip n)

/-- The largest length a field may declare. -/
def maxLength : Nat := 0xfffff

/-- A number used as a length or a count. -/
def count : KeyReader Nat := do
  let b ← take 4
  let n := Bytes.toNat b
  if maxLength < n then throw .overflow
  pure n

def byte : KeyReader UInt8 := do
  let b ← take 1
  pure (b.headD 0)

def word : KeyReader Nat := do
  let b ← take 4
  pure (Bytes.toNat b)

/-- Runs `f` on the next string, whose length is not checked before it is read. -/
def nested {α : Type} (f : KeyReader α) : KeyReader α := do
  let n ← count
  modify fun i => { i with limits := n :: i.limits }
  let v ← f
  modify fun i => { i with limits := i.limits.tail }
  pure v

/-- The whole of the next string. -/
def field : KeyReader Bytes :=
  nested do take (← remaining)

/-- The whole of the next string, which has at most `limit` bytes. -/
def fieldWithin (limit : Nat) : KeyReader Bytes :=
  nested do
    let n ← remaining
    if limit < n then throw .length
    take n

def utf8 (b : Bytes) : KeyReader String :=
  match Bytes.toString? b with
  | some s => pure s
  | none => throw .encoding

def text : KeyReader String := do
  utf8 (← field)

/-- Names have at most 48 bytes. -/
def maxName : Nat := 48

/-- A name that `known` gives a meaning to. -/
def name {α : Type} (known : String → Option α) : KeyReader α := do
  let s ← utf8 (← fieldWithin maxName)
  match known s with
  | some a => pure a
  | none => throw (.label s)

/-- Whether an integer is written without superfluous leading zeros. -/
def isCanonical : Bytes → Bool
  | [0] => false
  | 0 :: b :: _ => 0x80 ≤ b
  | _ => true

/-- An integer in two's complement, kept as it is written. -/
def integer : KeyReader Bytes := do
  let b ← field
  if isCanonical b then pure b else throw .format

end KeyReader

end SshKeys
