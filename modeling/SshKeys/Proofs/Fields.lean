import SshKeys.Proofs.Wire

/-!
# Fields one after another

A message is a row of fields, and a row of readers takes it apart again.  What can be
read are exactly the written forms, whatever stands behind them; where a field cannot
be read, the fault says what is left of the input.

* `Field.readAll_eq_ok_iff`: **a row of readers gives the fields whose written forms
  the input begins with**.
* `Field.string_eq_error_iff`, `Field.text_eq_error_iff`: what failing takes from the
  input.
-/

namespace SshKeys.Field

/-! ## Rows of fields -/

/-- The kinds of fields, a string that must be UTF-8 being one of its own. -/
inductive Kind where
  | word
  | string
  | text
  deriving DecidableEq, Repr

/-- What a field holds. -/
inductive Value where
  | word (w : UInt32)
  | string (b : Bytes)
  | text (s : String)
  deriving DecidableEq, Repr

namespace Value

def kind : Value → Kind
  | word _ => .word
  | string _ => .string
  | text _ => .text

/-- The written form. -/
def put : Value → Bytes
  | word w => Bytes.be32 w
  | string b => putString b
  | text s => putText s

/-- The length of the string, if it is one, fits into the word in front of it. -/
def Declarable : Value → Prop
  | word _ => True
  | string b => b.length < 2 ^ 32
  | text s => s.utf8ByteSize < 2 ^ 32

end Value

/-- The reader of the fields of a kind. -/
def Kind.read : Kind → Reader Value
  | word => do pure (.word (← Field.word))
  | string => do pure (.string (← Field.string))
  | text => do pure (.text (← Field.text))

def putAll (vs : List Value) : Bytes :=
  vs.flatMap Value.put

theorem putAll_cons (v : Value) (vs : List Value) : putAll (v :: vs) = v.put ++ putAll vs := rfl

/-- Reads one field of each kind, in order. -/
def readAll : List Kind → Reader (List Value)
  | [] => pure []
  | k :: ks => do
    let v ← k.read
    let vs ← readAll ks
    pure (v :: vs)

variable {input rest : Bytes} {f : Fault}

theorem Kind.read_eq_ok_iff {k : Kind} {v : Value} :
    k.read input = (.ok v, rest) ↔ v.kind = k ∧ v.Declarable ∧ input = v.put ++ rest := by
  -- A reader of one kind gives values of no other.
  cases k with
  | word =>
    rw [read, ExceptState.bind_eq_ok_iff]
    constructor
    · rintro ⟨w, t, hw, hv⟩
      cases hv
      exact ⟨rfl, trivial, word_eq_ok_iff.1 hw⟩
    · rintro ⟨hKind, -, hInput⟩
      cases v with
      | word w => exact ⟨w, rest, word_eq_ok_iff.2 hInput, rfl⟩
      | string _ => cases hKind
      | text _ => cases hKind
  | string =>
    rw [read, ExceptState.bind_eq_ok_iff]
    constructor
    · rintro ⟨b, t, hb, hv⟩
      cases hv
      obtain ⟨hInput, hLength⟩ := string_eq_ok_iff.1 hb
      exact ⟨rfl, hLength, hInput⟩
    · rintro ⟨hKind, hLength, hInput⟩
      cases v with
      | word _ => cases hKind
      | string b => exact ⟨b, rest, string_eq_ok_iff.2 ⟨hInput, hLength⟩, rfl⟩
      | text _ => cases hKind
  | text =>
    rw [read, ExceptState.bind_eq_ok_iff]
    constructor
    · rintro ⟨s, t, hs, hv⟩
      cases hv
      obtain ⟨hInput, hLength⟩ := text_eq_ok_iff.1 hs
      exact ⟨rfl, hLength, hInput⟩
    · rintro ⟨hKind, hLength, hInput⟩
      cases v with
      | word _ => cases hKind
      | string _ => cases hKind
      | text s => exact ⟨s, rest, text_eq_ok_iff.2 ⟨hInput, hLength⟩, rfl⟩

/-- **What a row of readers gives is what is written at the front of the input**, and what it
leaves is all that stands behind. -/
theorem readAll_eq_ok_iff {ks : List Kind} {vs : List Value} :
    readAll ks input = (.ok vs, rest) ↔
      vs.map Value.kind = ks ∧ (∀ v ∈ vs, v.Declarable) ∧ input = putAll vs ++ rest := by
  induction ks generalizing vs input with
  | nil =>
    constructor
    · intro h
      cases h
      exact ⟨rfl, List.forall_mem_nil _, rfl⟩
    · rintro ⟨hKinds, -, rfl⟩
      rw [List.map_eq_nil_iff] at hKinds
      rw [hKinds]
      rfl
  | cons k ks ih =>
    rw [readAll, ExceptState.bind_eq_ok_iff]
    constructor
    · rintro ⟨v, t, hv, h⟩
      obtain ⟨vs', u, hvs, h⟩ := ExceptState.bind_eq_ok_iff.1 h
      cases h
      obtain ⟨rfl, hFirst, rfl⟩ := Kind.read_eq_ok_iff.1 hv
      obtain ⟨rfl, hOthers, rfl⟩ := ih.1 hvs
      refine ⟨rfl, List.forall_mem_cons.2 ⟨hFirst, hOthers⟩, ?_⟩
      rw [putAll_cons, List.append_assoc]
    · rintro ⟨hKinds, hAll, rfl⟩
      cases vs with
      | nil => cases hKinds
      | cons v vs =>
        obtain ⟨rfl, hRest⟩ := List.cons.inj hKinds
        obtain ⟨hFirst, hOthers⟩ := List.forall_mem_cons.1 hAll
        refine ⟨v, putAll vs ++ rest, Kind.read_eq_ok_iff.2 ⟨rfl, hFirst, ?_⟩, ?_⟩
        · rw [putAll_cons, List.append_assoc]
        · exact ExceptState.bind_eq_ok_iff.2 ⟨vs, rest, ih.2 ⟨hRest, hOthers, rfl⟩, rfl⟩

/-! ## Failing -/

theorem bytes_eq_error_iff {n : Nat} :
    bytes n input = (.error f, rest) ↔
      input.length < n ∧ f = .short n input.length ∧ rest = input := by
  rw [bytes]
  by_cases hShort : input.length < n
  · rw [if_pos hShort]
    constructor
    · intro h
      cases h
      exact ⟨hShort, rfl, rfl⟩
    · rintro ⟨-, rfl, rfl⟩
      rfl
  · rw [if_neg hShort]
    constructor
    · intro h
      cases h
    · intro h
      exact absurd h.1 hShort

theorem word_eq_error_iff :
    word input = (.error f, rest) ↔
      input.length < 4 ∧ f = .short 4 input.length ∧ rest = input := by
  rw [word, ExceptState.bind_eq_error_iff, bytes_eq_error_iff]
  constructor
  · rintro (h | ⟨b, t, -, h⟩)
    · exact h
    · cases h
  · exact .inl

/-- A string cannot be read if its length cannot, and if its length overruns the input; only
then is anything taken from the input, and only the length. -/
theorem string_eq_error_iff :
    string input = (.error f, rest) ↔
      input.length < 4 ∧ f = .short 4 input.length ∧ rest = input ∨
        ∃ w, input = Bytes.be32 w ++ rest ∧ rest.length < w.toNat ∧
          f = .overrun w.toNat rest.length := by
  rw [string, ExceptState.bind_eq_error_iff, word_eq_error_iff]
  refine or_congr Iff.rfl ?_
  constructor
  · rintro ⟨w, t, hw, h⟩
    have hInput := word_eq_ok_iff.1 hw
    rcases ExceptState.bind_eq_error_iff.1 h with h | ⟨t', t'', hGet, h⟩
    · cases h
    · cases hGet
      rcases ExceptState.refuse_eq_error_iff.1 h with ⟨hOverrun, rfl, rfl⟩ | ⟨hFits, h⟩
      · exact ⟨w, hInput, hOverrun, rfl⟩
      · -- A length that fits is that of bytes that are there.
        exact absurd (bytes_eq_error_iff.1 h).1 hFits
  · rintro ⟨w, hInput, hOverrun, rfl⟩
    refine ⟨w, rest, word_eq_ok_iff.2 hInput, ?_⟩
    refine ExceptState.bind_eq_error_iff.2 (.inr ⟨rest, rest, rfl, ?_⟩)
    exact ExceptState.refuse_eq_error_iff.2 (.inl ⟨hOverrun, rfl, rfl⟩)

/-- A string that is no text is taken from the input as one that is. -/
theorem text_eq_error_iff :
    text input = (.error f, rest) ↔
      string input = (.error f, rest) ∨
        ∃ b, input = putString b ++ rest ∧ b.length < 2 ^ 32 ∧ Bytes.toString? b = none ∧
          f = .notUtf8 := by
  rw [text, ExceptState.bind_eq_error_iff]
  refine or_congr Iff.rfl ?_
  constructor
  · rintro ⟨b, t, hb, h⟩
    obtain ⟨hInput, hLength⟩ := string_eq_ok_iff.1 hb
    cases hs : Bytes.toString? b with
    | none =>
      rw [hs] at h
      cases h
      exact ⟨b, hInput, hLength, hs, rfl⟩
    | some s =>
      rw [hs] at h
      cases h
  · rintro ⟨b, hInput, hLength, hs, rfl⟩
    refine ⟨b, rest, string_eq_ok_iff.2 ⟨hInput, hLength⟩, ?_⟩
    rw [hs]
    rfl

/-- **Fields are read back exactly, and only from their written forms**; a field that cannot be
read leaves the input as it was, or takes the length it overruns or the string that is no text. -/
theorem fields_exact :
    (∀ ks vs input rest, readAll ks input = (.ok vs, rest) ↔
      vs.map Value.kind = ks ∧ (∀ v ∈ vs, v.Declarable) ∧ input = putAll vs ++ rest) ∧
    (∀ n input f rest, bytes n input = (.error f, rest) ↔
      input.length < n ∧ f = .short n input.length ∧ rest = input) ∧
    (∀ input f rest, word input = (.error f, rest) ↔
      input.length < 4 ∧ f = .short 4 input.length ∧ rest = input) ∧
    (∀ input f rest, string input = (.error f, rest) ↔
      input.length < 4 ∧ f = .short 4 input.length ∧ rest = input ∨
        ∃ w, input = Bytes.be32 w ++ rest ∧ rest.length < w.toNat ∧
          f = .overrun w.toNat rest.length) ∧
    (∀ input f rest, text input = (.error f, rest) ↔
      string input = (.error f, rest) ∨
        ∃ b, input = putString b ++ rest ∧ b.length < 2 ^ 32 ∧ Bytes.toString? b = none ∧
          f = .notUtf8) :=
  ⟨fun _ _ _ _ => readAll_eq_ok_iff, fun _ _ _ _ => bytes_eq_error_iff,
    fun _ _ _ => word_eq_error_iff, fun _ _ _ => string_eq_error_iff,
    fun _ _ _ => text_eq_error_iff⟩

end SshKeys.Field
