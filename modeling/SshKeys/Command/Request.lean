import SshKeys.Choice

/-!
# Requests

What the user can ask for, with everything that was left open still open.
-/

namespace SshKeys

structure GenerateRequest where
  algorithm : Option KeyAlgorithm
  bits : Option Nat
  format : Option KeyFormat
  cipher : Option CipherKind
  comment : Option String
  inTheClear : Bool
  output : Option String
  deriving DecidableEq, Repr

structure ConvertRequest where
  source : String
  format : KeyFormat
  cipher : Option CipherKind
  comment : Option String
  inTheClear : Bool
  output : Option String
  deriving DecidableEq, Repr

/-- What is to be done. -/
inductive Task where
  | generate (r : GenerateRequest)
  | convert (r : ConvertRequest)
  | importKey (source : String) (comment : Option String) (asJson : Bool)
  | inspect (source : String) (asJson : Bool)
  | showSettings
  | initSettings
  deriving DecidableEq, Repr

structure Request where
  /-- The settings file, if it is not the one at the usual place. -/
  settings : Option String
  task : Task
  deriving DecidableEq, Repr

end SshKeys
