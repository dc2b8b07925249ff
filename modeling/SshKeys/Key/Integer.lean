import SshKeys.Bytes

/-!
# Integers of a key

The integers of RSA and DSA keys are written in two's complement, most
significant byte first, and in as few bytes as possible.
-/

namespace SshKeys.Integer

/-- The digits of a positive integer, without the zero byte that shows its sign. -/
def digits? : Bytes → Option Bytes
  | [] => none
  | 0 :: rest => some rest
  | b :: rest => if b < 0x80 then some (b :: rest) else none

/-- The value of a positive integer. -/
def value? (b : Bytes) : Option Nat :=
  (digits? b).map Bytes.toNat

/-- The written form of a natural number; zero is written in no bytes. -/
def ofNat (n : Nat) : Bytes :=
  let digits := Bytes.ofNatShort n
  if digits.headD 0 < 0x80 then digits else 0 :: digits

/-- The number of binary digits of a byte. -/
def byteBits (b : UInt8) : Nat :=
  if b = 0 then 0 else b.toNat.log2 + 1

/-- The number of binary digits of an integer as it is written; none if it is not positive. -/
def bits (b : Bytes) : Nat :=
  match digits? b with
  | some (first :: rest) => rest.length * 8 + byteBits first
  | _ => 0

end SshKeys.Integer
