import SshKeys.Bytes

/-!
# Distinguished encoding

Elements of ASN.1 in their one distinguished form: a tag, the length of the
content in as few bytes as possible, and the content.  `Der.Reader` takes
elements off the front of the input and refuses every other form.
-/

namespace SshKeys.Der

/-! ## Tags -/

def integerTag : UInt8 := 0x02

def bitStringTag : UInt8 := 0x03

def octetStringTag : UInt8 := 0x04

def nullTag : UInt8 := 0x05

def objectIdTag : UInt8 := 0x06

def sequenceTag : UInt8 := 0x30

/-- The tag of field `n` with a content of its own form. -/
def implicitTag (n : UInt8) : UInt8 := 0x80 ||| n

/-- The tag of field `n` around an element. -/
def explicitTag (n : UInt8) : UInt8 := 0xa0 ||| n

def isContextTag (t : UInt8) : Bool :=
  0x80 ≤ t && t ≤ 0xbf

/-- The number of the field a context tag stands for. -/
def fieldNumber (t : UInt8) : UInt8 :=
  t &&& 0x1f

/-- The tags of the universal class that are in use. -/
def universalTags : List UInt8 :=
  [0x01, 0x02, 0x03, 0x04, 0x05, 0x06, 0x09, 0x0a, 0x0c, 0x12, 0x13, 0x14, 0x15, 0x16, 0x17, 0x18,
    0x1a, 0x1e, 0x30, 0x31]

/-- A tag of one byte: a universal one in use, or one of another class. -/
def isTag (t : UInt8) : Bool :=
  universalTags.contains t || 0x40 ≤ t && t &&& 0x1f ≠ 0x1f

/-! ## Writing -/

/-- The length of a content. -/
def putLength (n : Nat) : Bytes :=
  if n < 0x80 then [UInt8.ofNat n]
  else UInt8.ofNat (0x80 + Bytes.widthOf n) :: Bytes.ofNatShort n

def put (tag : UInt8) (content : Bytes) : Bytes :=
  tag :: putLength content.length ++ content

def putSequence (elements : List Bytes) : Bytes :=
  put sequenceTag elements.flatten

/-- A natural number; a zero byte keeps it from looking negative. -/
def putNat (n : Nat) : Bytes :=
  let digits := Bytes.ofNatShort n
  put integerTag (if digits.headD 0x80 < 0x80 then digits else 0 :: digits)

def putOctets (b : Bytes) : Bytes :=
  put octetStringTag b

/-- The content of a bit string of whole bytes. -/
def bits (b : Bytes) : Bytes :=
  0 :: b

def null : Bytes := put nullTag []

/-! ## Reading -/

abbrev Reader (α : Type) := StateT Bytes Option α

def byte : Reader UInt8
  | [] => none
  | b :: rest => some (b, rest)

def bytes (n : Nat) : Reader Bytes := fun input =>
  if input.length < n then none else some (input.take n, input.drop n)

/-- The largest length an element may have. -/
def maxLength : Nat := 0xfffffff

/-- The length of a content, in as few bytes as possible. -/
def length : Reader Nat := do
  let first ← byte
  if first < 0x80 then pure first.toNat
  else
    let width := first.toNat - 0x80
    guard (1 ≤ width ∧ width ≤ 4)
    let n := Bytes.toNat (← bytes width)
    guard (n ≤ maxLength ∧ putLength n = first :: Bytes.ofNat width n)
    pure n

/-- The next element: its tag and its content. -/
def element : Reader (UInt8 × Bytes) := do
  let tag ← byte
  guard (isTag tag)
  let content ← bytes (← length)
  pure (tag, content)

/-- The content of the next element, which must have the tag. -/
def content (tag : UInt8) : Reader Bytes := do
  let (found, c) ← element
  guard (found = tag)
  pure c

/-- Runs a reader on a whole content. -/
def whole {α : Type} (r : Reader α) (c : Bytes) : Option α :=
  match r c with
  | some (a, []) => some a
  | _ => none

/-- The elements of a sequence. -/
def sequence {α : Type} (r : Reader α) : Reader α := do
  let c ← content sequenceTag
  (whole r c : Option α)

/-- The tag of the next element, if there is one. -/
def nextTag : Reader (Option UInt8) := do
  match (← get).head? with
  | none => pure none
  | some t =>
    guard (isTag t)
    pure (some t)

/-- An element that may be missing. -/
def optional {α : Type} (tag : UInt8) (r : Reader α) : Reader (Option α) := do
  if (← nextTag) = some tag then pure (some (← r)) else pure none

/-- An element of any tag that may be missing. -/
def optionalElement : Reader (Option (UInt8 × Bytes)) := do
  match ← nextTag with
  | none => pure none
  | some _ => pure (some (← element))

/-- The digits of a natural number: a zero byte in front only where it is needed. -/
def naturalDigits? : Bytes → Option Bytes
  | [] => none
  | [0] => some [0]
  | 0 :: b :: rest => if b < 0x80 then none else some (b :: rest)
  | b :: rest => if b < 0x80 then some (b :: rest) else none

def nat : Reader Nat := do
  let digits ← naturalDigits? (← content integerTag)
  pure (Bytes.toNat digits)

/-- A natural number of at most `width` bytes. -/
def natWithin (width : Nat) : Reader Nat := do
  let n ← nat
  guard (Bytes.widthOf n ≤ width)
  pure n

def octets : Reader Bytes :=
  content octetStringTag

/-- The bytes of a bit string, all of whose bits are used. -/
def wholeBytes? : Bytes → Option Bytes
  | 0 :: b => some b
  | _ => none

/-- Whether `arcs` are numbers to base 128; `place` counts the bytes of the one being read. -/
def isArcs (place : Nat) : Bytes → Bool
  | [] => place = 0
  | b :: rest =>
    (place < 4 || b &&& 0xf0 = 0) && isArcs (if b &&& 0x80 = 0 then 0 else place + 1) rest

/-- Whether a content is an object identifier: its first byte stands for two arcs. -/
def isObjectId (c : Bytes) : Bool :=
  3 ≤ c.length && c.length ≤ 39 && c.headD 0 < 120 && isArcs 0 c.tail

def objectId : Reader Bytes := do
  let c ← content objectIdTag
  guard (isObjectId c)
  pure c

/-- Elements of fields numbered below `n`, which are passed over; `fuel` bounds their number. -/
def skipFieldsBelow (n : UInt8) : (fuel : Nat) → Reader Unit
  | 0 => pure ()
  | fuel + 1 => do
    match ← nextTag with
    | some t =>
      if isContextTag t && fieldNumber t < n then
        let _ ← element
        skipFieldsBelow n fuel
      else pure ()
    | none => pure ()

/-- Field `n`, if it comes next after fields of lower numbers. -/
def field {α : Type} (n : UInt8) (r : Reader α) : Reader (Option α) := do
  skipFieldsBelow n (← get).length
  match ← nextTag with
  | some t => if isContextTag t && fieldNumber t = n then pure (some (← r)) else pure none
  | none => pure none

/-- Field `n` around an element. -/
def explicitField {α : Type} (n : UInt8) (r : Reader α) : Reader (Option α) :=
  field n do
    let c ← content (explicitTag n)
    (whole r c : Option α)

/-- Fields around one element each, up to the end; `fuel` bounds their number. -/
def furtherFields : (fuel : Nat) → Reader Unit
  | 0 => pure ()
  | fuel + 1 => do
    if (← get) ≠ [] then
      let (t, c) ← element
      guard (isContextTag t ∧ t &&& 0x20 ≠ 0)
      let _ ← (whole element c : Option (UInt8 × Bytes))
      furtherFields fuel

/-! ## Algorithm identifiers -/

/-- The name of an algorithm with its parameters, an element of any kind. -/
structure AlgorithmId where
  name : Bytes
  parameters : Option (UInt8 × Bytes)
  deriving DecidableEq

def algorithmId : Reader AlgorithmId :=
  sequence do
    let name ← objectId
    pure ⟨name, ← optionalElement⟩

/-- Reads parameters as the elements of a sequence. -/
def sequenceOf {α : Type} (r : Reader α) (parameters : Option (UInt8 × Bytes)) : Option α := do
  let (tag, c) ← parameters
  guard (tag = sequenceTag)
  whole r c

def putObjectId (name : Bytes) : Bytes :=
  put objectIdTag name

end SshKeys.Der
