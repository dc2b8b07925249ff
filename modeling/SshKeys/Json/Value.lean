/-!
# JSON values

Numbers keep their written form, and the members of an object their order.  A
string that holds half of a surrogate pair is no text.
-/

namespace SshKeys

inductive JsonValue where
  | null
  | bool (b : Bool)
  | number (digits : List Char)
  | string (text : Option String)
  | array (elements : List JsonValue)
  | object (members : List (Option String × JsonValue))

namespace JsonValue

def text (s : String) : JsonValue :=
  string (some s)

def nat (n : Nat) : JsonValue :=
  number (toString n).toList

/-- An object of fields in the given order. -/
def record (fields : List (String × JsonValue)) : JsonValue :=
  object (fields.map fun (k, v) => (some k, v))

/-- A value that may be missing. -/
def optional {α : Type} (f : α → JsonValue) : Option α → JsonValue
  | none => null
  | some a => f a

/-- The number a row of decimal digits stands for. -/
def decimal (digits : List Char) : Nat :=
  digits.foldl (fun n c => n * 10 + (c.toNat - '0'.toNat)) 0

/-- A natural number of at most 64 bits, written without sign, fraction and exponent. -/
def nat64? : JsonValue → Option Nat
  | number digits =>
    if digits.all Char.isDigit && decimal digits < UInt64.size then some (decimal digits) else none
  | _ => none

def text? : JsonValue → Option String
  | string s => s
  | _ => none

end JsonValue

end SshKeys
