import SshKeys.Bytes
import SshKeys.Json.Value

/-!
# Reading JSON

The grammar of RFC 8259, without extensions.  A value may be nested as deeply as
it likes.
-/

namespace SshKeys.JsonValue

abbrev Reader (α : Type) := StateT (List Char) Option α

def isBlank (c : Char) : Bool :=
  c = ' ' || c = '\n' || c = '\t' || c = '\r'

def blanks : Reader Unit := do
  set ((← get).dropWhile isBlank)

/-- The next character after blanks. -/
def next : Reader Char := do
  blanks
  match ← get with
  | [] => failure
  | c :: rest =>
    set rest
    pure c

def expect (c : Char) : Reader Unit := do
  guard ((← next) = c)

/-- The rest of a word. -/
def word (cs : List Char) : Reader Unit := do
  let input ← get
  guard (cs.isPrefixOf input)
  set (input.drop cs.length)

/-! ## Strings -/

/-- A part of a string: a character, or one half of a surrogate pair. -/
inductive Piece where
  | char (c : Char)
  | half (code : Nat)

namespace Piece

def ofCode (n : Nat) : Piece :=
  if 0xd800 ≤ n ∧ n ≤ 0xdfff then half n else char (Char.ofNat n)

/-- The characters of the pieces, if every half has its partner behind it. -/
def join? : List Piece → Option (List Char)
  | [] => some []
  | char c :: rest => (join? rest).map (c :: ·)
  | half hi :: half lo :: rest =>
    if hi < 0xdc00 ∧ 0xdc00 ≤ lo then
      (join? rest).map (Char.ofNat (0x10000 + (hi - 0xd800) * 0x400 + (lo - 0xdc00)) :: ·)
    else none
  | half _ :: _ => none

end Piece

def hexCode? (a b c d : Char) : Option Nat := do
  let a ← Bytes.hexValue? a
  let b ← Bytes.hexValue? b
  let c ← Bytes.hexValue? c
  let d ← Bytes.hexValue? d
  pure (((a * 16 + b) * 16 + c) * 16 + d)

/-- The character a letter after a backslash stands for. -/
def unescape? : Char → Option Char
  | '"' => some '"'
  | '\\' => some '\\'
  | '/' => some '/'
  | 'b' => some '\x08'
  | 'f' => some '\x0c'
  | 'n' => some '\n'
  | 'r' => some '\r'
  | 't' => some '\t'
  | _ => none

/-- The pieces up to the closing quotation mark, and what follows it. -/
def pieces : List Char → Option (List Piece × List Char)
  | [] => none
  | '"' :: rest => some ([], rest)
  | '\\' :: 'u' :: a :: b :: c :: d :: rest => do
    let n ← hexCode? a b c d
    let (ps, rest) ← pieces rest
    pure (Piece.ofCode n :: ps, rest)
  | '\\' :: e :: rest => do
    let c ← unescape? e
    let (ps, rest) ← pieces rest
    pure (.char c :: ps, rest)
  | c :: rest => do
    guard (0x20 ≤ c.toNat)
    let (ps, rest) ← pieces rest
    pure (.char c :: ps, rest)

/-- A string after its opening quotation mark. -/
def stringBody : Reader (Option String) := do
  let (ps, rest) ← (pieces (← get) : Option _)
  set rest
  pure ((Piece.join? ps).map String.ofList)

/-! ## Numbers -/

/-- One digit or more. -/
def digits : Reader (List Char) := do
  let input ← get
  let ds := input.takeWhile Char.isDigit
  guard (ds ≠ [])
  set (input.drop ds.length)
  pure ds

/-- The next character, if it is one of `cs`. -/
def oneOf (cs : List Char) : Reader (List Char) := do
  match ← get with
  | c :: rest =>
    if cs.contains c then
      set rest
      pure [c]
    else pure []
  | [] => pure []

/-- A number in its written form; only zero itself begins with a zero. -/
def numeral : Reader (List Char) := do
  let sign ← oneOf ['-']
  let whole ← digits
  guard (whole = ['0'] ∨ whole.head? ≠ some '0')
  let point ← oneOf ['.']
  let fraction ← if point = [] then pure [] else digits
  let mark ← oneOf ['e', 'E']
  let expSign ← if mark = [] then pure [] else oneOf ['+', '-']
  let exponent ← if mark = [] then pure [] else digits
  pure (sign ++ whole ++ point ++ fraction ++ mark ++ expSign ++ exponent)

/-! ## Values -/

mutual

/-- A value; `fuel` bounds the elements and members on the way into it. -/
def value : (fuel : Nat) → Reader JsonValue
  | 0 => failure
  | fuel + 1 => do
    match ← next with
    | 'n' => word "ull".toList; pure null
    | 't' => word "rue".toList; pure (bool true)
    | 'f' => word "alse".toList; pure (bool false)
    | '"' => pure (string (← stringBody))
    | '[' =>
      blanks
      if (← get).head? = some ']' then
        expect ']'
        pure (array [])
      else pure (array (← elements fuel))
    | '\x7b' =>
      blanks
      if (← get).head? = some '\x7d' then
        expect '\x7d'
        pure (object [])
      else pure (object (← members fuel))
    | c =>
      set (c :: (← get))
      pure (number (← numeral))

/-- The elements from the next one on, up to the closing bracket. -/
def elements : (fuel : Nat) → Reader (List JsonValue)
  | 0 => failure
  | fuel + 1 => do
    let v ← value fuel
    match ← next with
    | ',' => pure (v :: (← elements fuel))
    | ']' => pure [v]
    | _ => failure

/-- The members from the next one on, up to the closing brace. -/
def members : (fuel : Nat) → Reader (List (Option String × JsonValue))
  | 0 => failure
  | fuel + 1 => do
    expect '"'
    let k ← stringBody
    expect ':'
    let v ← value fuel
    match ← next with
    | ',' => pure ((k, v) :: (← members fuel))
    | '\x7d' => pure [(k, v)]
    | _ => failure

end

/-- The value of a text. -/
def parse? (s : String) : Option JsonValue :=
  let cs := s.toList
  match value (2 * cs.length + 2) cs with
  | some (v, rest) => if rest.all isBlank then some v else none
  | none => none

end SshKeys.JsonValue
