import SshKeys.Json.Printer
import SshKeys.Proofs.JsonText

/-!
# What is printed is a text of the value

A value is `Sound` if its numbers are numerals and its strings are texts.  The printer
writes such a value in the grammar of `Written`, at every level of indentation
(`bare_pretty`), so what the reader makes of the text is the value
(`written_print_append`, by `parse?_of_written`).
-/

namespace SshKeys.JsonValue

/-! ## Strings -/

theorem isCode_hexPair {n : Nat} (h : n < 0x100) :
    IsCode ('0' :: '0' :: Bytes.hexPair (UInt8.ofNat n)) n := by
  have hByte : (UInt8.ofNat n).toNat = n := by
    rw [UInt8.toNat_ofNat', Nat.mod_eq_of_lt h]
  have hDigit (i : Nat) (hi : i < 16) : IsHex (Bytes.hexDigit i) i := ⟨hi, .inl rfl⟩
  refine ⟨'0', '0', _, _, 0, 0, n / 16, n % 16, ?_, hDigit 0 (by decide), hDigit 0 (by decide),
    hDigit _ (by omega), hDigit _ (by omega), by omega⟩
  rw [Bytes.hexPair, hByte]

/-- However a character is written, it is the one that is meant. -/
theorem spells_escape {t : Option (List Char)} {cs : List Char} (c : Char) (h : Spells t cs) :
    Spells (t.map (c :: ·)) (escape c ++ cs) := by
  unfold escape
  split
  iterate 7 exact .letter (by decide) h
  next hQuote hSlash _ _ _ _ _ =>
    by_cases hControl : c.toNat < 0x20
    · have hByte : c.toNat < 0x100 := by omega
      have hCode := Spells.code (isCode_hexPair hByte) (.inl (by omega)) h
      rw [Char.ofNat_toNat] at hCode
      rwa [if_pos hControl]
    · rw [if_neg hControl]
      exact .char (Nat.not_lt.1 hControl) hQuote hSlash h

theorem spells_flatMap (cs : List Char) : Spells (some cs) (cs.flatMap escape) := by
  induction cs with
  | nil => exact .nil
  | cons c cs ih => exact spells_escape c ih

theorem bare_quote (s : String) : Bare (text s) (quote s) := by
  have hBare : Bare _ (quote s) := .string (spells_flatMap s.toList)
  rwa [Option.map_some, String.ofList_toList] at hBare

/-! ## Natural numbers -/

theorem isDigits_toDigits (n : Nat) : IsDigits (Nat.toDigits 10 n) :=
  ⟨Nat.toDigits_ne_nil, fun _ h => Nat.isDigit_of_mem_toDigits (by decide) (by decide) h⟩

/-- The first digit is the one of the quotient by ten, down to a single digit. -/
theorem head?_toDigits {n : Nat} (h : 0 < n) : (Nat.toDigits 10 n).head? ≠ some '0' := by
  induction n using Nat.strong_induction_on with
  | h n ih =>
    by_cases hSmall : n < 10
    · rw [Nat.toDigits_of_lt_base hSmall]
      simpa using Nat.ne_of_gt h
    · rw [Nat.toDigits_of_base_le (by decide) (Nat.not_lt.1 hSmall),
        List.head?_append_of_ne_nil _ Nat.toDigits_ne_nil]
      exact ih (n / 10) (by omega) (by omega)

theorem isWhole_toDigits (n : Nat) : IsWhole (Nat.toDigits 10 n) := by
  refine ⟨isDigits_toDigits n, ?_⟩
  rcases Nat.eq_zero_or_pos n with rfl | hPos
  · exact .inl (Nat.toDigits_zero 10)
  · exact .inr (head?_toDigits hPos)

theorem isNumeral_toString (n : Nat) : IsNumeral (toString n).toList := by
  refine ⟨[], Nat.toDigits 10 n, [], [], ?_, List.mem_cons_self, isWhole_toDigits n, .inl rfl,
    .inl rfl⟩
  rw [Nat.toString_eq_repr, Nat.toList_repr]
  simp only [List.nil_append, List.append_nil]

theorem decimal_toString (n : Nat) : decimal (toString n).toList = n := by
  have hFold (ds : List Char) : decimal ds = Nat.ofDigitChars 10 ds 0 := by
    rw [Nat.ofDigitChars_eq_foldl, decimal]
    simp only [Nat.mul_comm]
  rw [Nat.toString_eq_repr, Nat.toList_repr, hFold, Nat.ofDigitChars_ten_toDigits]

/-- A natural number of 64 bits is read as it was written. -/
theorem nat64?_nat {n : Nat} (h : n < UInt64.size) : (nat n).nat64? = some n := by
  have hDigits : (toString n).toList.all Char.isDigit = true := by
    rw [Nat.toString_eq_repr, Nat.toList_repr, List.all_eq_true]
    exact (isDigits_toDigits n).2
  rw [nat, nat64?, decimal_toString, hDigits, if_pos (by simpa using h)]

/-! ## Values -/

mutual

/-- Numbers are numerals and strings are texts. -/
def Sound : JsonValue → Prop
  | null | bool _ => True
  | number cs => IsNumeral cs
  | string s => s.isSome = true
  | array vs => AllSound vs
  | object ms => AllMembersSound ms

def AllSound : List JsonValue → Prop
  | [] => True
  | v :: vs => Sound v ∧ AllSound vs

def AllMembersSound : List (Option String × JsonValue) → Prop
  | [] => True
  | (k, v) :: ms => (k.isSome = true ∧ Sound v) ∧ AllMembersSound ms

end

theorem blanks_indentation (level : Nat) : Blanks (indentation level) := by
  intro c hc
  rcases List.mem_cons.1 hc with rfl | hc
  · rfl
  · rw [List.eq_of_mem_replicate hc]
    rfl

theorem blanks_nil : Blanks [] := nofun

theorem blanks_space : Blanks [' '] := by
  intro c hc
  rw [List.mem_singleton.1 hc]
  rfl

section Lists

variable {level : Nat} {b : List Char}

/-- Elements that are each written are written one below the other. -/
theorem writtenElements_pretty (hb : Blanks b) {v : JsonValue} {vs : List JsonValue}
    (h : ∀ w ∈ v :: vs, Bare w (pretty level w)) :
    WrittenElements (v :: vs)
      (indentation level ++ pretty level v ++ prettyElements level vs ++ b ++ [']']) := by
  induction vs generalizing v with
  | nil =>
    have hLast := WrittenElements.last (.mk (blanks_indentation level) (h v List.mem_cons_self) hb)
    simpa only [prettyElements, List.append_nil, List.append_assoc] using hLast
  | cons w vs ih =>
    have hMore := WrittenElements.more
      (.mk (blanks_indentation level) (h v List.mem_cons_self) blanks_nil)
      (ih fun x hx => h x (List.mem_cons_of_mem v hx))
    simpa only [prettyElements, List.append_nil, List.append_assoc, List.cons_append] using hMore

theorem writtenMembers_pretty (hb : Blanks b) {k : Option String} {v : JsonValue}
    {ms : List (Option String × JsonValue)}
    (h : ∀ f ∈ (k, v) :: ms, f.1.isSome = true ∧ Bare f.2 (pretty level f.2)) :
    WrittenMembers ((k, v) :: ms)
      (indentation level ++ quote (k.getD "") ++ ": ".toList ++ pretty level v
        ++ prettyMembers level ms ++ b ++ ['\x7d']) := by
  induction ms generalizing k v with
  | nil =>
    obtain ⟨hKey, hValue⟩ := h (k, v) List.mem_cons_self
    obtain ⟨name, rfl⟩ := Option.isSome_iff_exists.1 hKey
    have hLast := WrittenMembers.last (blanks_indentation level) (spells_flatMap name.toList)
      blanks_nil (.mk blanks_space hValue hb)
    rw [Option.map_some, String.ofList_toList] at hLast
    simpa [prettyMembers, quote] using hLast
  | cons f ms ih =>
    obtain ⟨hKey, hValue⟩ := h (k, v) List.mem_cons_self
    obtain ⟨name, rfl⟩ := Option.isSome_iff_exists.1 hKey
    have hMore := WrittenMembers.more (blanks_indentation level) (spells_flatMap name.toList)
      blanks_nil (.mk blanks_space hValue blanks_nil)
      (ih fun x hx => h x (List.mem_cons_of_mem _ hx))
    rw [Option.map_some, String.ofList_toList] at hMore
    simpa [prettyMembers, quote] using hMore

end Lists

mutual

/-- **A sound value is printed in the grammar**, at every level of indentation. -/
theorem bare_pretty (level : Nat) : (v : JsonValue) → Sound v → Bare v (pretty level v)
  | null, _ => .nullWord
  | bool true, _ => .trueWord
  | bool false, _ => .falseWord
  | number _, h => by
    rw [Sound] at h
    rw [pretty]
    exact .number h
  | string (some s), _ => by
    rw [pretty, Option.getD_some]
    exact bare_quote s
  | string none, h => by
    rw [Sound] at h
    cases h
  | array [], _ => by
    rw [pretty]
    exact .noElements blanks_nil
  | array (v :: vs), h => by
    rw [Sound] at h
    have hElements := writtenElements_pretty (blanks_indentation level)
      (bare_of_allSound (level + 1) (v :: vs) h)
    simpa only [pretty, List.append_assoc, List.cons_append] using Bare.array hElements
  | object [], _ => by
    rw [pretty]
    exact .noMembers blanks_nil
  | object ((k, v) :: ms), h => by
    rw [Sound] at h
    have hMembers := writtenMembers_pretty (blanks_indentation level)
      (bare_of_allMembersSound (level + 1) ((k, v) :: ms) h)
    simpa only [pretty, List.append_assoc, List.cons_append] using Bare.object hMembers

theorem bare_of_allSound (level : Nat) :
    (vs : List JsonValue) → AllSound vs → ∀ v ∈ vs, Bare v (pretty level v)
  | [], _ => nofun
  | v :: vs, h => by
    rw [AllSound] at h
    rw [List.forall_mem_cons]
    exact ⟨bare_pretty level v h.1, bare_of_allSound level vs h.2⟩

theorem bare_of_allMembersSound (level : Nat) :
    (ms : List (Option String × JsonValue)) → AllMembersSound ms →
      ∀ f ∈ ms, f.1.isSome = true ∧ Bare f.2 (pretty level f.2)
  | [], _ => nofun
  | (k, v) :: ms, h => by
    rw [AllMembersSound] at h
    rw [List.forall_mem_cons]
    exact ⟨⟨h.1.1, bare_pretty level v h.1.2⟩, bare_of_allMembersSound level ms h.2⟩

end

/-- A printed value with blanks behind it is still a text of it. -/
theorem written_print_append {v : JsonValue} {b : String} (h : Sound v) (hb : Blanks b.toList) :
    Written v (print v ++ b).toList := by
  rw [String.toList_append, print, String.toList_ofList]
  exact .mk blanks_nil (bare_pretty 0 v h) hb

end SshKeys.JsonValue
