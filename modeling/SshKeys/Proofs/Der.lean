import SshKeys.Der
import SshKeys.Proofs.Integer
import SshKeys.Proofs.Steps

/-!
# Distinguished encoding read back

`Yields r b a` says that `r` takes exactly `b` off the front of any input and
gives `a`.  `yields_put` is the fact for one element; the readers of the
documents are sequences of such steps.
-/

namespace SshKeys.Der

open StateOption (bind_of_some guard_of lift_of_some)

variable {α β : Type}

def Yields (r : Reader α) (b : Bytes) (a : α) : Prop :=
  ∀ rest, r (b ++ rest) = some (a, rest)

theorem Yields.whole {r : Reader α} {b : Bytes} {a : α} (h : Yields r b a) :
    Der.whole r b = some a := by
  have hRun := h []
  rw [List.append_nil] at hRun
  rw [Der.whole, hRun]

/-! ## Parts of what is read -/

theorem whole_map (f : α → β) (r : Reader α) (c : Bytes) :
    whole (f <$> r) c = (whole r c).map f := by
  have hRun : (f <$> r) c = (r c).map (Prod.map f id) := by
    change StateT.map f r c = _
    rw [StateT.map]
    cases r c <;> rfl
  rw [whole, whole, hRun]
  rcases r c with _ | ⟨a, rest⟩
  · rfl
  · cases rest <;> rfl

theorem sequence_map (f : α → β) (r : Reader α) : sequence (f <$> r) = f <$> sequence r := by
  rw [sequence, sequence, map_bind]
  refine bind_congr fun c => ?_
  rw [whole_map]
  cases whole r c <;> rfl

/-! ## Elements -/

theorem yields_bytes (b : Bytes) : Yields (bytes b.length) b b := by
  intro rest
  rw [bytes, if_neg (by rw [List.length_append]; omega), List.take_left, List.drop_left]

theorem length_putLength_le {n : Nat} (h : n ≤ maxLength) : (putLength n).length ≤ 5 := by
  have hWidth : Bytes.widthOf n ≤ 4 := Bytes.widthOf_le (h.trans_lt (by decide))
  rw [putLength]
  split
  · simp
  · rw [List.length_cons, Bytes.ofNatShort, Bytes.length_ofNat]
    omega

theorem length_put_le (tag : UInt8) {c : Bytes} (h : c.length ≤ maxLength) :
    (put tag c).length ≤ c.length + 6 := by
  have hLength := length_putLength_le h
  rw [put, List.length_append, List.length_cons]
  omega

theorem yields_length {n : Nat} (h : n ≤ maxLength) : Yields length (putLength n) n := by
  intro rest
  by_cases hShort : n < 0x80
  · have hFirst : UInt8.ofNat n < 0x80 := by
      rw [UInt8.lt_iff_toNat_lt, UInt8.toNat_ofNat']
      exact (Nat.mod_le ..).trans_lt hShort
    have hByte : byte ([UInt8.ofNat n] ++ rest) = some (UInt8.ofNat n, rest) := rfl
    rw [putLength, if_pos hShort, length, bind_of_some hByte, if_pos hFirst,
      UInt8.toNat_ofNat_of_lt' (hShort.trans (by decide))]
    rfl
  · have hWidth : Bytes.widthOf n ≤ 4 := Bytes.widthOf_le (h.trans_lt (by decide))
    have hOne : 1 ≤ Bytes.widthOf n := by
      rw [Bytes.widthOf, if_neg (by omega)]
      omega
    have hPut : putLength n =
        UInt8.ofNat (0x80 + Bytes.widthOf n) :: Bytes.ofNat (Bytes.widthOf n) n :=
      if_neg hShort
    have hFirst : (UInt8.ofNat (0x80 + Bytes.widthOf n)).toNat = 0x80 + Bytes.widthOf n :=
      UInt8.toNat_ofNat_of_lt' ((Nat.add_le_add_left hWidth 0x80).trans_lt (by decide))
    have hHigh : ¬UInt8.ofNat (0x80 + Bytes.widthOf n) < 0x80 := by
      rw [UInt8.lt_iff_toNat_lt, hFirst]
      exact Nat.not_lt.2 (Nat.le_add_right ..)
    have hByte : byte (putLength n ++ rest) =
        some (UInt8.ofNat (0x80 + Bytes.widthOf n), Bytes.ofNat (Bytes.widthOf n) n ++ rest) := by
      rw [hPut]
      rfl
    have hBytes := yields_bytes (Bytes.ofNat (Bytes.widthOf n) n) rest
    rw [Bytes.length_ofNat] at hBytes
    rw [length, bind_of_some hByte, if_neg hHigh]
    simp only [hFirst, Nat.add_sub_cancel_left]
    rw [bind_of_some (guard_of ⟨hOne, hWidth⟩), bind_of_some hBytes,
      Bytes.toNat_ofNat (Bytes.lt_widthOf n), bind_of_some (guard_of ⟨h, hPut⟩)]
    rfl

theorem yields_put {tag : UInt8} {c : Bytes} (hTag : isTag tag = true)
    (hLength : c.length ≤ maxLength) : Yields element (put tag c) (tag, c) := by
  intro rest
  have hByte : byte (put tag c ++ rest) = some (tag, putLength c.length ++ (c ++ rest)) := by
    rw [put, List.append_assoc]
    rfl
  rw [element, bind_of_some hByte, bind_of_some (guard_of hTag),
    bind_of_some (yields_length hLength _), bind_of_some (yields_bytes c rest)]
  rfl

theorem yields_content {tag : UInt8} {c : Bytes} (hTag : isTag tag = true)
    (hLength : c.length ≤ maxLength) : Yields (content tag) (put tag c) c := by
  intro rest
  rw [content, bind_of_some (yields_put hTag hLength rest)]
  exact bind_of_some (guard_of rfl)

theorem yields_octets {c : Bytes} (hLength : c.length ≤ maxLength) :
    Yields octets (putOctets c) c :=
  yields_content (by decide) hLength

theorem yields_sequence {r : Reader α} {elements : List Bytes} {a : α}
    (hLength : elements.flatten.length ≤ maxLength) (h : whole r elements.flatten = some a) :
    Yields (sequence r) (putSequence elements) a := by
  intro rest
  rw [sequence, putSequence, bind_of_some (yields_content (by decide) hLength rest)]
  exact lift_of_some h

theorem yields_objectId {name : Bytes} (h : isObjectId name = true) :
    Yields objectId (putObjectId name) name := by
  intro rest
  have hLength : name.length ≤ maxLength := by
    have hAll := h
    simp only [isObjectId, Bool.and_eq_true, decide_eq_true_eq] at hAll
    exact hAll.1.1.2.trans (by decide)
  rw [objectId, putObjectId, bind_of_some (yields_content (by decide) hLength rest),
    bind_of_some (guard_of h)]
  rfl

/-! ## Numbers -/

/-- A positive number is written as the integer of a key is. -/
theorem putNat_eq {n : Nat} (h : 0 < n) : putNat n = put integerTag (Integer.ofNat n) := by
  obtain ⟨x, c, hShort, -, -⟩ := Bytes.exists_ofNatShort h
  rw [putNat, Integer.ofNat, hShort]
  rfl

theorem exists_putNat (n : Nat) :
    ∃ c digits, putNat n = put integerTag c ∧ naturalDigits? c = some digits ∧
      Bytes.toNat digits = n ∧ c.length ≤ (Integer.ofNat n).length + 1 := by
  rcases Nat.eq_zero_or_pos n with rfl | hn
  · exact ⟨[0], [0], rfl, rfl, rfl, by simp⟩
  · obtain ⟨x, c, hx, hValue, hForm⟩ := Integer.exists_ofNat hn
    refine ⟨Integer.ofNat n, x :: c, putNat_eq hn, ?_, ?_, by omega⟩
    · rcases hForm with ⟨hLow, hForm⟩ | ⟨hHigh, hForm⟩
      · rw [hForm, naturalDigits?.eq_def]
        split
        · next hEq => cases hEq
        · next hEq => exact absurd (List.cons.inj hEq).1 hx
        · next hEq => exact absurd (List.cons.inj hEq).1 hx
        · next hEq =>
          cases hEq
          exact if_pos hLow
      · rw [hForm]
        exact if_neg (UInt8.not_lt.2 hHigh)
    · rw [Bytes.toNat_cons, ← hValue]

theorem yields_nat {n : Nat} (h : (Integer.ofNat n).length < maxLength) :
    Yields nat (putNat n) n := by
  intro rest
  obtain ⟨c, digits, hPut, hDigits, hValue, hLength⟩ := exists_putNat n
  rw [nat, hPut, bind_of_some (yields_content (by decide) (by omega) rest),
    bind_of_some (lift_of_some hDigits), hValue]
  rfl

theorem length_putNat_le {n : Nat} (h : (Integer.ofNat n).length < maxLength) :
    (putNat n).length ≤ (Integer.ofNat n).length + 7 := by
  obtain ⟨c, digits, hPut, -, -, hLength⟩ := exists_putNat n
  have hPutLength := length_put_le integerTag (c := c) (by omega)
  rw [hPut]
  omega

/-- A version number. -/
theorem yields_natWithin_one {n : Nat} (h : n < 128) : Yields (natWithin 1) (putNat n) n := by
  intro rest
  have hLength : (Integer.ofNat n).length ≤ 1 :=
    Integer.length_ofNat_le (w := 0) (by simpa using h)
  have hWidth : Bytes.widthOf n ≤ 1 := Bytes.widthOf_le (by omega)
  have hMax : maxLength = 268435455 := rfl
  rw [natWithin, bind_of_some (yields_nat (by omega) rest), bind_of_some (guard_of hWidth)]
  rfl

/-! ## Optional elements -/

theorem nextTag_cons {t : UInt8} {rest : Bytes} (h : isTag t = true) :
    nextTag (t :: rest) = some (some t, t :: rest) := by
  rw [nextTag, bind_of_some (a := t :: rest) (t := t :: rest) rfl]
  exact bind_of_some (guard_of h)

theorem skipFieldsBelow_nil (n : UInt8) (fuel : Nat) :
    skipFieldsBelow n fuel [] = some ((), []) := by
  cases fuel with
  | zero => rfl
  | succ fuel => rfl

theorem skipFieldsBelow_cons {n t : UInt8} {rest : Bytes} (hTag : isTag t = true)
    (h : (isContextTag t && fieldNumber t < n) = false) (fuel : Nat) :
    skipFieldsBelow n fuel (t :: rest) = some ((), t :: rest) := by
  cases fuel with
  | zero => rfl
  | succ fuel =>
    rw [skipFieldsBelow, bind_of_some (nextTag_cons hTag)]
    simp only [h]
    rfl

theorem field_nil (n : UInt8) (r : Reader α) : field n r [] = some (none, []) := by
  rw [field, bind_of_some (a := []) (t := []) rfl, bind_of_some (skipFieldsBelow_nil ..)]
  rfl

/-- A field of a higher number is left where it is. -/
theorem field_of_ne {n t : UInt8} {r : Reader α} {rest : Bytes} (hTag : isTag t = true)
    (hBelow : (isContextTag t && fieldNumber t < n) = false)
    (hNe : (isContextTag t && fieldNumber t = n) = false) :
    field n r (t :: rest) = some (none, t :: rest) := by
  rw [field, bind_of_some (a := t :: rest) (t := t :: rest) rfl,
    bind_of_some (skipFieldsBelow_cons hTag hBelow _), bind_of_some (nextTag_cons hTag)]
  simp only [hNe]
  rfl

theorem field_of_eq {n t : UInt8} {r : Reader α} {a : α} {b rest : Bytes} (hTag : isTag t = true)
    (hBelow : (isContextTag t && fieldNumber t < n) = false)
    (hEq : (isContextTag t && fieldNumber t = n) = true) (h : r (t :: b) = some (a, rest)) :
    field n r (t :: b) = some (some a, rest) := by
  rw [field, bind_of_some (a := t :: b) (t := t :: b) rfl,
    bind_of_some (skipFieldsBelow_cons hTag hBelow _), bind_of_some (nextTag_cons hTag)]
  simp only [hEq, if_true]
  rw [bind_of_some h]
  rfl

/-! ## Algorithm identifiers -/

/-- The names of algorithms are short. -/
theorem length_putObjectId_le {name : Bytes} (h : isObjectId name = true) :
    (putObjectId name).length ≤ 45 := by
  have hLength : name.length ≤ 39 := by
    simp only [isObjectId, Bool.and_eq_true, decide_eq_true_eq] at h
    exact h.1.1.2
  have hPut := length_put_le objectIdTag (c := name) (hLength.trans (by decide))
  rw [putObjectId]
  omega

theorem yields_algorithmId_name {name : Bytes} (h : isObjectId name = true) :
    Yields algorithmId (putSequence [putObjectId name]) ⟨name, none⟩ := by
  have hName := length_putObjectId_le h
  have hMax : maxLength = 268435455 := rfl
  rw [algorithmId]
  refine yields_sequence ?_ ?_
  · rw [List.flatten_singleton]
    omega
  · rw [List.flatten_singleton]
    have hRun := yields_objectId h []
    rw [List.append_nil] at hRun
    rw [whole, bind_of_some hRun]
    rfl

theorem yields_algorithmId {name parameters : Bytes} {tag : UInt8} (h : isObjectId name = true)
    (hTag : isTag tag = true) (hLength : parameters.length ≤ 100) :
    Yields algorithmId (putSequence [putObjectId name, put tag parameters])
      ⟨name, some (tag, parameters)⟩ := by
  have hName := length_putObjectId_le h
  have hMax : maxLength = 268435455 := rfl
  have hPut := length_put_le tag (c := parameters) (by omega)
  have hFlatten : [putObjectId name, put tag parameters].flatten =
      putObjectId name ++ put tag parameters := by simp
  have hElement := yields_put (c := parameters) hTag (by omega) []
  rw [List.append_nil] at hElement
  rw [algorithmId]
  refine yields_sequence ?_ ?_
  · rw [hFlatten, List.length_append]
    omega
  · have hNext : nextTag (put tag parameters) = some (some tag, put tag parameters) :=
      nextTag_cons hTag
    rw [hFlatten, whole, bind_of_some (yields_objectId h _), optionalElement]
    rw [bind_of_some (s := put tag parameters)
      ((bind_of_some hNext).trans (bind_of_some hElement))]
    rfl

end SshKeys.Der
