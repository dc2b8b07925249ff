import SshKeys.Chunks
import SshKeys.Failure

/-!
# Textual encoding of keys

The strict form of RFC 7468: one block between `-----BEGIN LABEL-----` and
`-----END LABEL-----`, with all lines of its base64 but the last of one width.
Text before the block is dropped; nothing but a line end may follow it.
-/

namespace SshKeys.Pem

def lineFeed : UInt8 := 10

def carriageReturn : UInt8 := 13

def dashes : Bytes := Bytes.ofString "-----"

def beginStart : Bytes := Bytes.ofString "-----BEGIN "

def endStart : Bytes := Bytes.ofString "-----END "

/-- The width of a line of a DER document. -/
def lineWidth : Nat := 64

/-! ## Writing -/

/-- A DER document between its two marker lines. -/
def encode (label : String) (document : Bytes) : String :=
  let body := (chunks lineWidth (Base64.text document)).flatMap (· ++ ['\n'])
  "-----BEGIN " ++ label ++ "-----\n" ++ String.ofList body ++ "-----END " ++ label ++ "-----\n"

/-! ## Line ends -/

/-- The text after the line end it begins with: a line feed, a carriage return, or both. -/
def afterEol? : Bytes → Option Bytes
  | 13 :: 10 :: rest => some rest
  | 13 :: rest => some rest
  | 10 :: rest => some rest
  | _ => none

theorem length_lt_of_afterEol? {b rest : Bytes} (h : afterEol? b = some rest) :
    rest.length < b.length := by
  unfold afterEol? at h
  split at h <;> cases h <;> simp only [List.length_cons] <;> omega

/-- The text before the line end it ends with. -/
def beforeEol? (b : Bytes) : Option Bytes :=
  match b.reverse with
  | 10 :: 13 :: rest => some rest.reverse
  | 10 :: rest => some rest.reverse
  | 13 :: rest => some rest.reverse
  | _ => none

def withoutEol (b : Bytes) : Bytes :=
  (beforeEol? b).getD b

/-! ## The block -/

/-- The text from the first marker line on.  A zero byte before it is an error. -/
def block? : Bytes → Option Bytes
  | [] => none
  | b :: rest =>
    if b = 0 then none
    else if b = lineFeed ∧ beginStart.isPrefixOf rest then some rest
    else block? rest

/-- The characters of a label apart from single spaces between them. -/
def isLabelByte (b : UInt8) : Bool :=
  0x21 ≤ b && b ≤ 0x7e && b ≠ 0x2d

/-- The label of a marker line, and what follows; `afterSpace` says whether a space may not come
next. -/
def label (afterSpace : Bool) : Bytes → Bytes × Bytes
  | [] => ([], [])
  | b :: rest =>
    if isLabelByte b then
      let (l, rest) := label false rest
      (b :: l, rest)
    else if b = 0x20 ∧ !afterSpace then
      let (l, rest) := label true rest
      (b :: l, rest)
    else ([], b :: rest)

/-- The front part of a text that ends with `suffix`. -/
def before? (suffix b : Bytes) : Option Bytes :=
  if suffix.isSuffixOf b then some (b.take (b.length - suffix.length)) else none

/-- The label of the block of a text and what stands between the marker lines. -/
def encapsulated? (text : Bytes) : Option (Bytes × Bytes) := do
  let block ← if beginStart.isPrefixOf text then some text else block? text
  let (name, rest) := label true (block.drop beginStart.length)
  guard (dashes.isPrefixOf rest)
  let rest ← afterEol? (rest.drop dashes.length)
  let rest ← before? dashes (withoutEol rest)
  let rest ← before? name rest
  let rest ← before? endStart rest
  let body ← beforeEol? rest
  pure (name, body)

/-! ## Lines and base64 -/

/-- The lines of a body: all but the last have exactly `width` bytes. -/
def lines? (width : Nat) (b : Bytes) : Option (List Bytes) :=
  if _h : width < b.length then
    match _hr : afterEol? (b.drop width) with
    | none => none
    | some rest => (lines? width rest).map (b.take width :: ·)
  else if b = [] then some []
  else some [withoutEol b]
termination_by b.length
decreasing_by
  have := length_lt_of_afterEol? _hr
  simp only [List.length_drop] at this
  omega

/-- The bytes of the groups of four symbols up to the first that is none. -/
def groups : Bytes → Bytes
  | a :: b :: c :: d :: rest =>
    match Base64.decode [a, b, c, d] with
    | .ok bytes => if bytes.length = 3 then bytes ++ groups rest else []
    | .error _ => []
  | _ => []

/-- The input a body of base64 stands for.  Its last group is checked at once, so the length is
certain; a group before it that cannot be decoded leaves the rest unreadable.  Padding is
understood in the last line only, so a blank line behind a padded group makes it unreadable. -/
def content? (lines : List Bytes) : Option KeyInput := do
  let symbols := lines.flatten
  guard (symbols.length % 4 = 0 ∧ symbols ≠ [])
  let blankEnd := lines.getLast? = some []
  let front := symbols.take (symbols.length - 4)
  let last ← (Base64.decode (symbols.drop (symbols.length - 4))).toOption
  let total := front.length / 4 * 3 + last.length
  let readable := groups (if blankEnd then symbols else front)
  let readable :=
    if !blankEnd && readable.length = front.length / 4 * 3 then readable ++ last else readable
  pure { source := .armor blankEnd, bytes := readable, unreadable := total - readable.length }

/-- The content of the block of a text, which must have the label. -/
def input? (width : Nat) (name : String) (text : String) : Option KeyInput := do
  let (found, body) ← encapsulated? (Bytes.ofString text)
  guard (found = Bytes.ofString name ∧ body ≠ [])
  content? (← lines? width body)

/-- The DER document of a text, which must have the label. -/
def decode? (name : String) (text : String) : Option Bytes := do
  let input ← input? lineWidth name text
  guard (input.unreadable = 0)
  pure input.bytes

/-- The label of a text, whichever it is, and the DER document. -/
def labeled? (text : String) : Option (Bytes × Bytes) := do
  let (found, body) ← encapsulated? (Bytes.ofString text)
  guard (body ≠ [])
  let input ← content? (← lines? lineWidth body)
  guard (input.unreadable = 0)
  pure (found, input.bytes)

/-- A document of a text: its label is looked at before its content. -/
def document {α : Type} (name : String) (read? : Bytes → Option α) (text : String) :
    Except DocumentFault α :=
  match labeled? text with
  | none => .error ⟨.armor, Bytes.ofString text⟩
  | some (found, content) =>
    if found ≠ Bytes.ofString name then .error ⟨.label, found⟩
    else
      match read? content with
      | none => .error ⟨.content, content⟩
      | some a => .ok a

end SshKeys.Pem
