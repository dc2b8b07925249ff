import SshKeys.Key.Info
import SshKeys.Text.Blank

/-!
# Public key lines

A public key is stored as one line: the name of the algorithm, the binary form
in base64, and a comment if there is one.  `PublicKey.ofLine` reads such a line
and `PublicKey.line` writes it.
-/

namespace SshKeys

/-- Everything a report says about a public key. -/
structure PublicKeyInfo where
  keyType : KeyType
  bitLength : Nat
  line : String
  fingerprints : Fingerprints
  deriving DecidableEq, Repr

namespace PublicKey

/-- The line of a key.  The comment loses the blanks around it, and is left out when empty. -/
def line (k : PublicKey) (comment : String) : String :=
  let start := k.algorithm.name ++ " " ++ String.ofList (Base64.text k.blob)
  let comment := Text.trim comment
  if comment.isEmpty then start else start ++ " " ++ comment

def info (k : PublicKey) (comment : String) : Except Failure PublicKeyInfo := do
  let keyType ← k.keyType
  let bitLength ← k.bitLength
  pure ⟨keyType, bitLength, k.line comment, k.fingerprints⟩

/-- The key of a line and its comment, if it has one.  The name in front must be the one inside
the binary form. -/
def ofLine (s : String) : Except Failure (PublicKey × Option String) :=
  match Text.words s with
  | token :: body :: rest =>
    match Algorithm.ofName? token with
    | none => .error (.unsupportedAlgorithm token)
    | some algorithm =>
      match Base64.decode (Bytes.ofString body) with
      | .error f => .error (.invalidInput (.base64 f))
      | .ok blob =>
        match ofBlob blob with
        | .error f => .error (.invalidInput (.publicKey f))
        | .ok key =>
          if key.algorithm ≠ algorithm then
            .error (.invalidInput (.typeMismatch token key.algorithm.name))
          else do
            let _ ← key.keyType
            let comment := String.intercalate " " rest
            pure (key, if comment.isEmpty then none else some comment)
  | _ => .error (.invalidInput .lineShape)

end PublicKey

end SshKeys
