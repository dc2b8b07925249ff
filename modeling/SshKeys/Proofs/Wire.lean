import SshKeys.Container.Header
import SshKeys.Proofs.Bytes
import SshKeys.Proofs.Steps

/-!
# Fields read back

A reader of fields succeeds exactly on the written form of what it gives,
followed by what it leaves:

    word input = (.ok w, rest) ↔ input = be32 w ++ rest

and likewise for `string` and `text`, whose lengths have to fit into 32 bits.  A
reader of a whole message is described by joining these equivalences.
-/

namespace SshKeys

namespace Field

/-! ## Words -/

theorem wordOf_be32 (w : UInt32) : wordOf (Bytes.be32 w) = w := by
  apply UInt32.toNat_inj.1
  rw [← Bytes.toNat_be32 w]
  exact Bytes.toNat_word32 ..

theorem be32_wordOf {b : Bytes} (h : b.length = 4) : Bytes.be32 (wordOf b) = b := by
  match b, h with
  | [a, b, c, d], _ => exact Bytes.be32_word32 a b c d

theorem bytes_eq_ok_iff {n : Nat} {input b rest : Bytes} :
    bytes n input = (.ok b, rest) ↔ input = b ++ rest ∧ b.length = n := by
  constructor
  · intro h
    rw [bytes] at h
    split at h
    · cases h
    · cases h
      exact ⟨(List.take_append_drop n input).symm, List.length_take_of_le (by omega)⟩
  · rintro ⟨rfl, rfl⟩
    rw [bytes, if_neg (by simp), List.take_left, List.drop_left]

theorem word_eq_ok_iff {input rest : Bytes} {w : UInt32} :
    word input = (.ok w, rest) ↔ input = Bytes.be32 w ++ rest := by
  rw [word, ExceptState.bind_eq_ok_iff]
  constructor
  · rintro ⟨b, t, hb, hw⟩
    obtain ⟨rfl, hLength⟩ := bytes_eq_ok_iff.1 hb
    cases hw
    rw [be32_wordOf hLength]
  · rintro rfl
    refine ⟨_, _, bytes_eq_ok_iff.2 ⟨rfl, rfl⟩, ?_⟩
    rw [wordOf_be32]
    rfl

/-! ## Strings -/

theorem toNat_ofNat_length {n : Nat} (h : n < 2 ^ 32) : (UInt32.ofNat n).toNat = n :=
  UInt32.toNat_ofNat_of_lt h

theorem string_eq_ok_iff {input b rest : Bytes} :
    string input = (.ok b, rest) ↔ input = putString b ++ rest ∧ b.length < 2 ^ 32 := by
  rw [string, ExceptState.bind_eq_ok_iff]
  constructor
  · rintro ⟨n, t, hn, h⟩
    have hInput := word_eq_ok_iff.1 hn
    obtain ⟨t', t'', hGet, h⟩ := ExceptState.bind_eq_ok_iff.1 h
    cases hGet
    obtain ⟨-, h⟩ := ExceptState.refuse_eq_ok_iff.1 h
    obtain ⟨rfl, hLength⟩ := bytes_eq_ok_iff.1 h
    have hn : n = UInt32.ofNat b.length := by rw [hLength, UInt32.ofNat_toNat]
    refine ⟨?_, by rw [hLength]; exact n.toNat_lt⟩
    rw [hInput, hn, putString, List.append_assoc]
  · rintro ⟨rfl, hLength⟩
    have hn := toNat_ofNat_length hLength
    refine ⟨_, _, word_eq_ok_iff.2 (by rw [putString, List.append_assoc]), ?_⟩
    refine ExceptState.bind_eq_ok_iff.2 ⟨_, _, rfl, ?_⟩
    refine ExceptState.refuse_eq_ok_iff.2 ⟨?_, bytes_eq_ok_iff.2 ⟨rfl, hn.symm⟩⟩
    rw [hn, List.length_append]
    omega

/-- No written string starts another one: the first string of an input is fixed. -/
theorem putString_append_inj {a b x y : Bytes} (ha : a.length < 2 ^ 32) (hb : b.length < 2 ^ 32)
    (h : putString a ++ x = putString b ++ y) : a = b ∧ x = y := by
  have hRead := (string_eq_ok_iff.2 ⟨h, hb⟩).symm.trans (string_eq_ok_iff.2 ⟨rfl, ha⟩)
  cases hRead
  exact ⟨rfl, rfl⟩

/-- A declared length that overruns the input is consumed, and nothing else. -/
theorem string_of_overrun {w : UInt32} {rest : Bytes} (h : rest.length < w.toNat) :
    string (Bytes.be32 w ++ rest) = (.error (.overrun w.toNat rest.length), rest) := by
  rw [string, ExceptState.bind_of_ok (word_eq_ok_iff.2 rfl)]
  exact (ExceptState.bind_of_ok rfl).trans (ExceptState.refuse_of h)

theorem text_eq_ok_iff {input rest : Bytes} {s : String} :
    text input = (.ok s, rest) ↔ input = putText s ++ rest ∧ s.utf8ByteSize < 2 ^ 32 := by
  rw [text, ExceptState.bind_eq_ok_iff]
  constructor
  · rintro ⟨b, t, hb, h⟩
    obtain ⟨rfl, hLength⟩ := string_eq_ok_iff.1 hb
    cases hs : Bytes.toString? b with
    | none =>
      rw [hs] at h
      cases h
    | some s' =>
      rw [hs] at h
      cases h
      obtain rfl := Bytes.toString?_eq_some_iff.1 hs
      exact ⟨rfl, by rwa [Bytes.length_ofString] at hLength⟩
  · rintro ⟨rfl, hLength⟩
    refine ⟨_, _, string_eq_ok_iff.2 ⟨rfl, by rwa [Bytes.length_ofString]⟩, ?_⟩
    rw [Bytes.toString?_ofString]
    rfl

theorem length_putText (s : String) : (putText s).length = stringLength s.utf8ByteSize := by
  rw [putText, length_putString, Bytes.length_ofString]

end Field

/-- A reader of fields keeps its results among readers that fail with a `Failure`. -/
theorem ContainerHeader.field_eq_ok_iff {α : Type} {r : Field.Reader α} {input rest : Bytes}
    {a : α} : field r input = (.ok a, rest) ↔ r input = (.ok a, rest) := by
  match hr : r input with
  | (.ok _, _) =>
    rw [field, hr]
    constructor <;> intro h <;> cases h <;> rfl
  | (.error _, _) =>
    rw [field, hr]
    constructor <;> intro h <;> cases h

end SshKeys
