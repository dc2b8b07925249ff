/-!
# Finding one text in another

`cut? pat s` splits `s` at the first occurrence of `pat`.
-/

namespace SshKeys.Text

/-- What stands before and after the first occurrence of `pat`. -/
def cut? (pat : List Char) (s : List Char) : Option (List Char × List Char) :=
  if pat.isPrefixOf s then some ([], s.drop pat.length)
  else
    match s with
    | [] => none
    | c :: rest => (cut? pat rest).map fun (before, after) => (c :: before, after)

/-- Whether `pat` occurs in `s`. -/
def contains (s pat : String) : Bool :=
  (cut? pat.toList s.toList).isSome

/-- Whether `s` begins with `start`. -/
def startsWith (s start : String) : Bool :=
  start.toList.isPrefixOf s.toList

end SshKeys.Text
