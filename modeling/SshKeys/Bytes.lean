/-!
# Byte strings

Keys, containers and messages are lists of bytes.  This file holds the readings
the formats need: numbers with the most or the least significant byte first,
hexadecimal text, and the bytewise exclusive or.
-/

namespace SshKeys

abbrev Bytes := List UInt8

namespace Bytes

/-- The number whose digits to base 256 are the bytes, most significant first. -/
def toNat (b : Bytes) : Nat :=
  b.foldl (fun n x => n * 256 + x.toNat) 0

/-- The `width` lowest bytes of `n`, most significant first. -/
def ofNat (width n : Nat) : Bytes :=
  go width n []
where
  go : Nat → Nat → Bytes → Bytes
    | 0, _, acc => acc
    | w + 1, n, acc => go w (n / 256) (UInt8.ofNat n :: acc)

/-- The number whose digits to base 256 are the bytes, least significant first. -/
def toNatLE (b : Bytes) : Nat :=
  toNat b.reverse

/-- The `width` lowest bytes of `n`, least significant first. -/
def ofNatLE (width n : Nat) : Bytes :=
  (ofNat width n).reverse

/-- How many bytes `n` needs; zero needs none. -/
def widthOf (n : Nat) : Nat :=
  if n = 0 then 0 else n.log2 / 8 + 1

/-- `n` without leading zero bytes. -/
def ofNatShort (n : Nat) : Bytes :=
  ofNat (widthOf n) n

/-- A 32-bit word, most significant byte first. -/
def be32 (w : UInt32) : Bytes :=
  [(w >>> 24).toUInt8, (w >>> 16).toUInt8, (w >>> 8).toUInt8, w.toUInt8]

/-- A 32-bit word, least significant byte first. -/
def le32 (w : UInt32) : Bytes :=
  [w.toUInt8, (w >>> 8).toUInt8, (w >>> 16).toUInt8, (w >>> 24).toUInt8]

/-- A 64-bit word, most significant byte first. -/
def be64 (w : UInt64) : Bytes :=
  be32 (w >>> 32).toUInt32 ++ be32 w.toUInt32

/-- The word of four bytes, most significant first. -/
def word32 (a b c d : UInt8) : UInt32 :=
  a.toUInt32 <<< 24 ||| b.toUInt32 <<< 16 ||| c.toUInt32 <<< 8 ||| d.toUInt32

/-- The complete 32-bit words of `b`, each with its most significant byte first. -/
def words32 : Bytes → List UInt32
  | a :: b :: c :: d :: rest => word32 a b c d :: words32 rest
  | _ => []

/-- The complete 32-bit words of `b`, each with its least significant byte first. -/
def words32LE : Bytes → List UInt32
  | a :: b :: c :: d :: rest => word32 d c b a :: words32LE rest
  | _ => []

/-- The complete 64-bit words of `b`, each with its most significant byte first. -/
def words64 (b : Bytes) : List UInt64 :=
  pair (words32 b)
where
  pair : List UInt32 → List UInt64
    | hi :: lo :: rest => (hi.toUInt64 <<< 32 ||| lo.toUInt64) :: pair rest
    | _ => []

/-- Bytewise exclusive or, as long as the shorter of the two. -/
def xor (a b : Bytes) : Bytes :=
  List.zipWith (· ^^^ ·) a b

/-- `n` zero bytes. -/
def zeros (n : Nat) : Bytes :=
  List.replicate n 0

def ofString (s : String) : Bytes :=
  s.toUTF8.toList

/-- The text a byte string is the UTF-8 form of, if it is well formed. -/
def toString? (b : Bytes) : Option String :=
  String.fromUTF8? ⟨b.toArray⟩

def hexDigit (n : Nat) : Char :=
  if n < 10 then Char.ofNat (48 + n) else Char.ofNat (87 + n)

/-- Two lower-case hexadecimal digits. -/
def hexPair (x : UInt8) : List Char :=
  [hexDigit (x.toNat / 16), hexDigit (x.toNat % 16)]

def toHex (b : Bytes) : String :=
  String.ofList (b.flatMap hexPair)

def hexValue? (c : Char) : Option Nat :=
  if '0' ≤ c ∧ c ≤ '9' then some (c.toNat - 48)
  else if 'a' ≤ c ∧ c ≤ 'f' then some (c.toNat - 87)
  else if 'A' ≤ c ∧ c ≤ 'F' then some (c.toNat - 55)
  else none

/-- Reads hexadecimal digits of either case, two to a byte. -/
def ofHexDigits? : List Char → Option Bytes
  | [] => some []
  | [_] => none
  | a :: b :: rest => do
    let hi ← hexValue? a
    let lo ← hexValue? b
    let tail ← ofHexDigits? rest
    pure (UInt8.ofNat (hi * 16 + lo) :: tail)

def ofHex? (s : String) : Option Bytes :=
  ofHexDigits? s.toList

end Bytes

end SshKeys
