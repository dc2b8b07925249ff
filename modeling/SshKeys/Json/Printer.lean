import SshKeys.Bytes
import SshKeys.Json.Value

/-!
# Printing JSON

Members and elements stand on lines of their own, indented by two blanks for
each level.
-/

namespace SshKeys.JsonValue

/-- A character inside quotation marks. -/
def escape (c : Char) : List Char :=
  match c with
  | '"' => ['\\', '"']
  | '\\' => ['\\', '\\']
  | '\n' => ['\\', 'n']
  | '\r' => ['\\', 'r']
  | '\t' => ['\\', 't']
  | '\x08' => ['\\', 'b']
  | '\x0c' => ['\\', 'f']
  | c =>
    if c.toNat < 0x20 then ['\\', 'u', '0', '0'] ++ Bytes.hexPair (UInt8.ofNat c.toNat) else [c]

def quote (s : String) : List Char :=
  '"' :: s.toList.flatMap escape ++ ['"']

def indentation (level : Nat) : List Char :=
  '\n' :: List.replicate (2 * level) ' '

mutual

/-- The value at a level of indentation. -/
def pretty (level : Nat) : JsonValue → List Char
  | null => "null".toList
  | bool b => (if b then "true" else "false").toList
  | number digits => digits
  | string s => quote (s.getD "")
  | array [] => "[]".toList
  | array (v :: rest) =>
    '[' :: indentation (level + 1) ++ pretty (level + 1) v ++ prettyElements (level + 1) rest
      ++ indentation level ++ [']']
  | object [] => ['\x7b', '\x7d']
  | object ((k, v) :: rest) =>
    '\x7b' :: indentation (level + 1) ++ quote (k.getD "") ++ ": ".toList ++ pretty (level + 1) v
      ++ prettyMembers (level + 1) rest ++ indentation level ++ ['\x7d']

def prettyElements (level : Nat) : List JsonValue → List Char
  | [] => []
  | v :: rest => ',' :: indentation level ++ pretty level v ++ prettyElements level rest

def prettyMembers (level : Nat) : List (Option String × JsonValue) → List Char
  | [] => []
  | (k, v) :: rest =>
    ',' :: indentation level ++ quote (k.getD "") ++ ": ".toList ++ pretty level v
      ++ prettyMembers level rest

end

/-- The value as a text of several lines. -/
def print (v : JsonValue) : String :=
  String.ofList (pretty 0 v)

end SshKeys.JsonValue
