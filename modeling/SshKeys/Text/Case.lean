import SshKeys.Text.Blank

/-!
# Lower case

Lower case for Latin and Cyrillic letters, which are those answers to questions
are written in.
-/

namespace SshKeys.Text

/-- The small letter of a capital; other characters stay as they are. -/
def lowerChar (c : Char) : Char :=
  let n := c.toNat
  if 0x41 ≤ n ∧ n ≤ 0x5a ∨ 0x410 ≤ n ∧ n ≤ 0x42f then Char.ofNat (n + 0x20)
  else if 0x400 ≤ n ∧ n ≤ 0x40f then Char.ofNat (n + 0x50)
  else c

def lower (s : String) : String :=
  String.ofList (s.toList.map lowerChar)

end SshKeys.Text
