import SshKeys.Bytes

/-!
# Base64

The standard alphabet with padding.  Three bytes become four symbols; reading is
strict, so that each byte string has exactly one written form.
-/

namespace SshKeys.Base64

/-- Why a text is not the written form of a byte string. -/
inductive Fault where
  | symbol (byte : UInt8) (offset : Nat)
  | length (symbols : Nat)
  | lastSymbol (byte : UInt8) (offset : Nat)
  | padding
  deriving DecidableEq, Repr

def Fault.message : Fault → String
  | .symbol b n => s!"Invalid symbol {b.toNat}, offset {n}."
  | .length n => s!"Invalid input length: {n}"
  | .lastSymbol b n => s!"Invalid last symbol {b.toNat}, offset {n}."
  | .padding => "Invalid padding"

/-- The character code of a value below 64. -/
def symbol (n : Nat) : UInt8 :=
  if n < 26 then UInt8.ofNat (65 + n)
  else if n < 52 then UInt8.ofNat (71 + n)
  else if n < 62 then UInt8.ofNat (n - 4)
  else if n = 62 then 43
  else 47

/-- The value of a symbol. -/
def value? (b : UInt8) : Option Nat :=
  let n := b.toNat
  if 65 ≤ n ∧ n ≤ 90 then some (n - 65)
  else if 97 ≤ n ∧ n ≤ 122 then some (n - 71)
  else if 48 ≤ n ∧ n ≤ 57 then some (n + 4)
  else if n = 43 then some 62
  else if n = 47 then some 63
  else none

def padding : UInt8 := 61

/-- The symbols of a byte string, filled up with `=` to groups of four. -/
def encode : Bytes → Bytes
  | [] => []
  | [a] =>
    let n := a.toNat <<< 16
    [symbol (n >>> 18), symbol (n >>> 12 % 64), padding, padding]
  | [a, b] =>
    let n := a.toNat <<< 16 + b.toNat <<< 8
    [symbol (n >>> 18), symbol (n >>> 12 % 64), symbol (n >>> 6 % 64), padding]
  | a :: b :: c :: rest =>
    let n := a.toNat <<< 16 + b.toNat <<< 8 + c.toNat
    symbol (n >>> 18) :: symbol (n >>> 12 % 64) :: symbol (n >>> 6 % 64)
      :: symbol (n % 64) :: encode rest

/-- The values of the symbols of the last group, and the number of paddings after them.  A
symbol after a padding is reported as the first padding. -/
def scanLast (offset : Nat) : (place : Nat) → (symbols : List Nat) → (firstPadding : Option Nat) →
    (paddings : Nat) → Bytes → Except Fault (List Nat × Nat)
  | _, symbols, _, paddings, [] => .ok (symbols, paddings)
  | place, symbols, firstPadding, paddings, b :: rest =>
    if b = padding then
      if place < 2 then .error (.symbol b (offset + place))
      else
        scanLast offset (place + 1) symbols (firstPadding.or (some place)) (paddings + 1) rest
    else
      match firstPadding with
      | some first => .error (.symbol padding (offset + first))
      | none =>
        match value? b with
        | none => .error (.symbol b (offset + place))
        | some v => scanLast offset (place + 1) (symbols ++ [v]) none paddings rest

/-- The bytes of the symbols of the last group; the bits left over must be zero. -/
def finish (offset : Nat) (symbols : List Nat) (paddings : Nat) : Except Fault Bytes :=
  if (symbols.length + paddings) % 4 ≠ 0 ∧ 2 ≤ symbols.length then .error .padding
  else
    match symbols with
    | [a, b, c, d] =>
      let n := a <<< 18 + b <<< 12 + c <<< 6 + d
      .ok [UInt8.ofNat (n >>> 16), UInt8.ofNat (n >>> 8), UInt8.ofNat n]
    | [a, b, c] =>
      let n := a <<< 12 + b <<< 6 + c
      if n % 4 = 0 then .ok [UInt8.ofNat (n >>> 10), UInt8.ofNat (n >>> 2)]
      else .error (.lastSymbol (symbol c) (offset + 2))
    | [a, b] =>
      let n := a <<< 6 + b
      if n % 16 = 0 then .ok [UInt8.ofNat (n >>> 4)]
      else .error (.lastSymbol (symbol b) (offset + 1))
    | _ => .error (.length (offset + symbols.length))

def decodeLast (offset : Nat) (group : Bytes) : Except Fault Bytes := do
  let (symbols, paddings) ← scanLast offset 0 [] none 0 group
  finish offset symbols paddings

/-- The value of a symbol that no padding may replace. -/
def inner (offset : Nat) (b : UInt8) : Except Fault Nat :=
  match value? b with
  | some v => .ok v
  | none => .error (.symbol b offset)

/-- Reads group after group; the last group, of one to four bytes, may end in padding. -/
def decodeFrom (offset : Nat) : Bytes → Except Fault Bytes
  | a :: b :: c :: d :: e :: rest => do
    let a ← inner offset a
    let b ← inner (offset + 1) b
    let c ← inner (offset + 2) c
    let d ← inner (offset + 3) d
    let tail ← decodeFrom (offset + 4) (e :: rest)
    let n := a <<< 18 + b <<< 12 + c <<< 6 + d
    pure (UInt8.ofNat (n >>> 16) :: UInt8.ofNat (n >>> 8) :: UInt8.ofNat n :: tail)
  | [] => .ok []
  | group => decodeLast offset group

/-- The byte string a text is the written form of.  A stray last byte is reported before
anything else when the length leaves it alone in its group. -/
def decode (text : Bytes) : Except Fault Bytes :=
  match text.getLast? with
  | none => .ok []
  | some last =>
    if text.length % 4 = 1 ∧ last ≠ padding ∧ (value? last).isNone then
      .error (.symbol last (text.length - 1))
    else decodeFrom 0 text

/-- The written form without its padding. -/
def encodeUnpadded (b : Bytes) : Bytes :=
  (encode b).filter (· ≠ padding)

/-- The characters of a written form. -/
def text (b : Bytes) : List Char :=
  (encode b).map fun x => Char.ofNat x.toNat

end SshKeys.Base64
