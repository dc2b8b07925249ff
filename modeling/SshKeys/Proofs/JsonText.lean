import Mathlib.Data.List.DropRight
import Mathlib.Tactic.FinCases
import Mathlib.Tactic.IntervalCases
import SshKeys.Json.Reader
import SshKeys.Proofs.Steps

/-!
# Texts of a JSON value

`JsonValue.Written v cs` is the grammar of RFC 8259 with the value that a text stands for:
blanks may stand around every token, and a string may spell each of its characters in any
of the ways there are.  A string that spells half of a surrogate pair stands for no text.

The reader takes every such text (`parse?_of_written`).  A value is read by the first
character of it, and a number goes on as long as it can, so what follows a value has to be
something that ends a number: in every text of the grammar it is (`Ends`).
-/

namespace SshKeys.JsonValue

/-! ## The grammar -/

def Blanks (cs : List Char) : Prop :=
  ∀ c ∈ cs, isBlank c = true

/-- A hexadecimal digit of either case. -/
def IsHex (c : Char) (n : Nat) : Prop :=
  n < 16 ∧ (c = Bytes.hexDigit n ∨ c = (Bytes.hexDigit n).toUpper)

/-- Four hexadecimal digits. -/
def IsCode (cs : List Char) (n : Nat) : Prop :=
  ∃ a b c d i j k l, cs = [a, b, c, d] ∧ IsHex a i ∧ IsHex b j ∧ IsHex c k ∧ IsHex d l ∧
    n = ((i * 16 + j) * 16 + k) * 16 + l

/-- The characters that a backslash and one letter stand for. -/
def letters : List (Char × Char) :=
  [('"', '"'), ('\\', '\\'), ('/', '/'), ('b', '\x08'), ('f', '\x0c'), ('n', '\n'), ('r', '\r'),
    ('t', '\t')]

/-- What may stand between quotation marks, and the text it stands for, if it stands for one. -/
inductive Spells : Option (List Char) → List Char → Prop where
  | nil : Spells (some []) []
  | char {t : Option (List Char)} {cs : List Char} {c : Char} (hPlain : 0x20 ≤ c.toNat)
      (hQuote : c ≠ '"') (hSlash : c ≠ '\\') (h : Spells t cs) : Spells (t.map (c :: ·)) (c :: cs)
  | letter {t : Option (List Char)} {cs : List Char} {e c : Char} (hLetter : (e, c) ∈ letters)
      (h : Spells t cs) : Spells (t.map (c :: ·)) ('\\' :: e :: cs)
  | code {t : Option (List Char)} {cs ds : List Char} {n : Nat} (hCode : IsCode ds n)
      (hChar : n < 0xd800 ∨ 0xdfff < n) (h : Spells t cs) :
      Spells (t.map (Char.ofNat n :: ·)) ('\\' :: 'u' :: ds ++ cs)
  | pair {t : Option (List Char)} {cs ds es : List Char} {hi lo : Nat} (hFirst : IsCode ds hi)
      (hHigh : 0xd800 ≤ hi ∧ hi < 0xdc00) (hSecond : IsCode es lo)
      (hLow : 0xdc00 ≤ lo ∧ lo ≤ 0xdfff) (h : Spells t cs) :
      Spells (t.map (Char.ofNat (0x10000 + (hi - 0xd800) * 0x400 + (lo - 0xdc00)) :: ·))
        ('\\' :: 'u' :: ds ++ '\\' :: 'u' :: es ++ cs)
  /-- One half of a pair, without the other half behind it. -/
  | half {t : Option (List Char)} {cs ds : List Char} {n : Nat} (hCode : IsCode ds n)
      (hHalf : 0xd800 ≤ n ∧ n ≤ 0xdfff)
      (hAlone : n < 0xdc00 → ∀ es lo rest, cs = '\\' :: 'u' :: es ++ rest → IsCode es lo →
        lo < 0xdc00 ∨ 0xdfff < lo)
      (h : Spells t cs) : Spells none ('\\' :: 'u' :: ds ++ cs)

def IsDigits (cs : List Char) : Prop :=
  cs ≠ [] ∧ ∀ c ∈ cs, c.isDigit = true

/-- Only zero itself begins with a zero. -/
def IsWhole (cs : List Char) : Prop :=
  IsDigits cs ∧ (cs = ['0'] ∨ cs.head? ≠ some '0')

def IsFraction (cs : List Char) : Prop :=
  cs = [] ∨ ∃ ds, cs = '.' :: ds ∧ IsDigits ds

def IsExponent (cs : List Char) : Prop :=
  cs = [] ∨ ∃ mark sign ds, cs = mark :: (sign ++ ds) ∧ mark ∈ ['e', 'E'] ∧
    sign ∈ [[], ['+'], ['-']] ∧ IsDigits ds

def IsNumeral (cs : List Char) : Prop :=
  ∃ sign whole fraction exponent, cs = sign ++ (whole ++ (fraction ++ exponent)) ∧
    sign ∈ [[], ['-']] ∧ IsWhole whole ∧ IsFraction fraction ∧ IsExponent exponent

mutual

/-- A value without the blanks around it. -/
inductive Bare : JsonValue → List Char → Prop where
  | nullWord : Bare null ['n', 'u', 'l', 'l']
  | trueWord : Bare (bool true) ['t', 'r', 'u', 'e']
  | falseWord : Bare (bool false) ['f', 'a', 'l', 's', 'e']
  | number {cs : List Char} (h : IsNumeral cs) : Bare (number cs) cs
  | string {t : Option (List Char)} {cs : List Char} (h : Spells t cs) :
      Bare (string (t.map String.ofList)) ('"' :: cs ++ ['"'])
  | noElements {a : List Char} (ha : Blanks a) : Bare (array []) ('[' :: a ++ [']'])
  | array {vs : List JsonValue} {cs : List Char} (h : WrittenElements vs cs) :
      Bare (array vs) ('[' :: cs)
  | noMembers {a : List Char} (ha : Blanks a) : Bare (object []) ('\x7b' :: a ++ ['\x7d'])
  | object {ms : List (Option String × JsonValue)} {cs : List Char} (h : WrittenMembers ms cs) :
      Bare (object ms) ('\x7b' :: cs)

/-- A value with the blanks around it. -/
inductive Written : JsonValue → List Char → Prop where
  | mk {v : JsonValue} {a cs b : List Char} (ha : Blanks a) (h : Bare v cs) (hb : Blanks b) :
      Written v (a ++ (cs ++ b))

/-- One element or more, up to the closing bracket. -/
inductive WrittenElements : List JsonValue → List Char → Prop where
  | last {v : JsonValue} {cs : List Char} (h : Written v cs) : WrittenElements [v] (cs ++ [']'])
  | more {v : JsonValue} {vs : List JsonValue} {cs rest : List Char} (h : Written v cs)
      (hRest : WrittenElements vs rest) : WrittenElements (v :: vs) (cs ++ ',' :: rest)

/-- One member or more, up to the closing brace. -/
inductive WrittenMembers : List (Option String × JsonValue) → List Char → Prop where
  | last {t : Option (List Char)} {v : JsonValue} {a b ks cs : List Char} (ha : Blanks a)
      (hKey : Spells t ks) (hb : Blanks b) (h : Written v cs) :
      WrittenMembers [(t.map String.ofList, v)]
        (a ++ '"' :: (ks ++ '"' :: (b ++ ':' :: (cs ++ ['\x7d']))))
  | more {t : Option (List Char)} {v : JsonValue} {ms : List (Option String × JsonValue)}
      {a b ks cs rest : List Char} (ha : Blanks a) (hKey : Spells t ks) (hb : Blanks b)
      (h : Written v cs) (hRest : WrittenMembers ms rest) :
      WrittenMembers ((t.map String.ofList, v) :: ms)
        (a ++ '"' :: (ks ++ '"' :: (b ++ ':' :: (cs ++ ',' :: rest))))

end

/-! ## Blanks -/

theorem blanks_of {a rest : List Char} (ha : Blanks a)
    (hRest : ∀ c ∈ rest.head?, isBlank c = false) : blanks (a ++ rest) = some ((), rest) := by
  have hRun : blanks (a ++ rest) = some ((), (a ++ rest).dropWhile isBlank) := rfl
  rw [hRun, List.dropWhile_append_of_pos ha]
  cases rest with
  | nil => rfl
  | cons c rest => rw [List.dropWhile_cons_of_neg (by simp [hRest c rfl])]

theorem next_of {a rest : List Char} {c : Char} (ha : Blanks a) (hc : isBlank c = false) :
    next (a ++ c :: rest) = some (c, rest) := by
  have hBlanks : blanks (a ++ c :: rest) = some ((), c :: rest) :=
    blanks_of ha fun d hd => by rwa [← Option.some.inj hd]
  rw [next, StateOption.bind_of_some hBlanks]
  rfl

theorem expect_of {a rest : List Char} {c : Char} (ha : Blanks a) (hc : isBlank c = false) :
    expect c (a ++ c :: rest) = some ((), rest) := by
  rw [expect, StateOption.bind_of_some (next_of ha hc)]
  exact StateOption.guard_of rfl

theorem word_of (w rest : List Char) : word w (w ++ rest) = some ((), rest) := by
  have hGet : (get : Reader (List Char)) (w ++ rest) = some (w ++ rest, w ++ rest) := rfl
  have hPrefix : w.isPrefixOf (w ++ rest) = true := List.isPrefixOf_iff_prefix.2 ⟨rest, rfl⟩
  rw [word, StateOption.bind_of_some hGet, StateOption.bind_of_some (StateOption.guard_of hPrefix)]
  exact congrArg (fun r => some ((), r)) List.drop_left

/-! ## Strings -/

theorem hexValue?_of_isHex {c : Char} {n : Nat} (h : IsHex c n) : Bytes.hexValue? c = some n := by
  obtain ⟨hn, rfl | rfl⟩ := h
  · interval_cases n <;> rfl
  · interval_cases n <;> rfl

theorem hexCode?_of_isCode {ds : List Char} {n : Nat} (h : IsCode ds n) :
    ∃ a b c d, ds = [a, b, c, d] ∧ hexCode? a b c d = some n := by
  obtain ⟨a, b, c, d, i, j, k, l, hDs, ha, hb, hc, hd, hn⟩ := h
  refine ⟨a, b, c, d, hDs, ?_⟩
  rw [hexCode?, hexValue?_of_isHex ha, hexValue?_of_isHex hb, hexValue?_of_isHex hc,
    hexValue?_of_isHex hd, hn]
  rfl

theorem unescape?_of_mem {e c : Char} (h : (e, c) ∈ letters) : e ≠ 'u' ∧ unescape? e = some c := by
  rw [letters] at h
  fin_cases h <;> exact ⟨by decide, rfl⟩

section Pieces

variable {t : Option (List Char)} {cs ds rest : List Char} {ps : List Piece}

theorem pieces_char {c : Char} (hPlain : 0x20 ≤ c.toNat) (hQuote : c ≠ '"') (hSlash : c ≠ '\\')
    (h : pieces cs = some (ps, rest)) : pieces (c :: cs) = some (.char c :: ps, rest) := by
  rw [pieces, h]
  · rw [guard, if_pos hPlain]
    rfl
  all_goals simp_all

theorem pieces_letter {e c : Char} (hLetter : (e, c) ∈ letters)
    (h : pieces cs = some (ps, rest)) : pieces ('\\' :: e :: cs) = some (.char c :: ps, rest) := by
  obtain ⟨hNotCode, hUnescape⟩ := unescape?_of_mem hLetter
  rw [pieces, hUnescape, h]
  · rfl
  · intro _ _ _ _ _ hu
    exact absurd hu hNotCode

theorem pieces_code {n : Nat} (hCode : IsCode ds n) (h : pieces cs = some (ps, rest)) :
    pieces ('\\' :: 'u' :: ds ++ cs) = some (Piece.ofCode n :: ps, rest) := by
  obtain ⟨a, b, c, d, rfl, hn⟩ := hexCode?_of_isCode hCode
  simp only [List.cons_append, List.nil_append]
  rw [pieces, hn, h]
  rfl

/-- The first of the pieces is a half only where the string begins with the code of one. -/
def OpensWith (cs : List Char) (ps : List Piece) : Prop :=
  ∀ n more, ps = .half n :: more →
    n ≤ 0xdfff ∧ ∃ ds rest, cs = '\\' :: 'u' :: ds ++ rest ∧ IsCode ds n

theorem opensWith_char {c : Char} : OpensWith cs (.char c :: ps) :=
  fun _ _ h => nomatch h

theorem opensWith_half {n : Nat} (hCode : IsCode ds n) (hHalf : n ≤ 0xdfff) :
    OpensWith ('\\' :: 'u' :: ds ++ cs) (.half n :: ps) := by
  rintro _ _ ⟨⟩
  exact ⟨hHalf, ds, cs, rfl, hCode⟩

/-- A half with no partner behind it spoils the text. -/
theorem join?_half {n : Nat} (hOpens : OpensWith cs ps)
    (hAlone : n < 0xdc00 → ∀ es lo rest, cs = '\\' :: 'u' :: es ++ rest → IsCode es lo →
      lo < 0xdc00 ∨ 0xdfff < lo) : Piece.join? (.half n :: ps) = none := by
  match ps with
  | [] => rfl
  | .char c :: more => rfl
  | .half lo :: more =>
    obtain ⟨hLo, es, rest, hEq, hCode⟩ := hOpens lo more rfl
    rw [Piece.join?, if_neg]
    rintro ⟨hHigh, hLow⟩
    have hOther := hAlone hHigh es lo rest hEq hCode
    omega

/-- A string is read up to its closing quotation mark, into the text it stands for. -/
theorem pieces_of_spells (h : Spells t cs) (rest : List Char) :
    ∃ ps, pieces (cs ++ '"' :: rest) = some (ps, rest) ∧ Piece.join? ps = t ∧
      OpensWith cs ps := by
  induction h with
  | nil => exact ⟨[], rfl, rfl, fun _ _ h => nomatch h⟩
  | char hPlain hQuote hSlash _ ih =>
    obtain ⟨ps, hPieces, hJoin, -⟩ := ih
    exact ⟨_, pieces_char hPlain hQuote hSlash hPieces, by rw [Piece.join?, hJoin],
      opensWith_char⟩
  | letter hLetter _ ih =>
    obtain ⟨ps, hPieces, hJoin, -⟩ := ih
    exact ⟨_, pieces_letter hLetter hPieces, by rw [Piece.join?, hJoin], opensWith_char⟩
  | code hCode hChar _ ih =>
    obtain ⟨ps, hPieces, hJoin, -⟩ := ih
    have hRead := pieces_code hCode hPieces
    rw [Piece.ofCode, if_neg (by omega)] at hRead
    exact ⟨_, by simpa using hRead, by rw [Piece.join?, hJoin], opensWith_char⟩
  | pair hFirst hHigh hSecond hLow _ ih =>
    obtain ⟨ps, hPieces, hJoin, -⟩ := ih
    have hRead := pieces_code hFirst (pieces_code hSecond hPieces)
    rw [Piece.ofCode, Piece.ofCode, if_pos (by omega), if_pos (by omega)] at hRead
    refine ⟨_, by simpa using hRead, ?_, ?_⟩
    · rw [Piece.join?, if_pos ⟨hHigh.2, hLow.1⟩, hJoin]
    · rw [List.append_assoc]
      exact opensWith_half hFirst (by omega)
  | half hCode hHalf hAlone _ ih =>
    obtain ⟨ps, hPieces, -, hOpens⟩ := ih
    have hRead := pieces_code hCode hPieces
    rw [Piece.ofCode, if_pos hHalf] at hRead
    exact ⟨_, by simpa using hRead, join?_half hOpens hAlone, opensWith_half hCode hHalf.2⟩

theorem stringBody_of_spells (h : Spells t cs) (rest : List Char) :
    stringBody (cs ++ '"' :: rest) = some (t.map String.ofList, rest) := by
  obtain ⟨ps, hPieces, hJoin, -⟩ := pieces_of_spells h rest
  have hGet : (get : Reader (List Char)) (cs ++ '"' :: rest) =
      some (cs ++ '"' :: rest, cs ++ '"' :: rest) := rfl
  rw [stringBody, StateOption.bind_of_some hGet,
    StateOption.bind_of_some (StateOption.lift_of_some hPieces), ← hJoin]
  rfl

end Pieces

/-! ## Numbers -/

/-- What ends a number: the end of the text, a blank, or what stands between and behind
values. -/
def Ends (rest : List Char) : Prop :=
  ∀ c ∈ rest.head?, isBlank c = true ∨ c ∈ [',', ']', '\x7d']

section Numbers

variable {ds rest : List Char}

theorem Ends.not_isDigit (h : Ends rest) : ∀ c ∈ rest.head?, c.isDigit = false := by
  intro c hc
  rcases h c hc with hBlank | hMem
  · simp only [isBlank, Bool.or_eq_true, decide_eq_true_eq] at hBlank
    rcases hBlank with ((rfl | rfl) | rfl) | rfl <;> rfl
  · fin_cases hMem <;> rfl

/-- What ends a number does not go on with it. -/
theorem Ends.not_mem (h : Ends rest) {cs : List Char} (hCs : ∀ c ∈ cs, c ∈ ['.', 'e', 'E']) :
    ∀ c ∈ rest.head?, c ∉ cs := by
  intro c hc hMem
  have hMark := hCs c hMem
  rcases h c hc with hBlank | hEnd
  · fin_cases hMark <;> cases hBlank
  · fin_cases hMark <;> revert hEnd <;> decide

theorem digits_of (hDigits : IsDigits ds) (hRest : ∀ c ∈ rest.head?, c.isDigit = false) :
    digits (ds ++ rest) = some (ds, rest) := by
  have hTake : (ds ++ rest).takeWhile Char.isDigit = ds := by
    rw [List.takeWhile_append_of_pos hDigits.2]
    cases rest with
    | nil => exact List.append_nil ds
    | cons c rest => rw [List.takeWhile_cons_of_neg (by simp [hRest c rfl]), List.append_nil]
  have hGet : (get : Reader (List Char)) (ds ++ rest) = some (ds ++ rest, ds ++ rest) := rfl
  rw [digits, StateOption.bind_of_some hGet]
  simp only [hTake]
  rw [StateOption.bind_of_some (StateOption.guard_of hDigits.1)]
  exact congrArg (fun r => some (ds, r)) List.drop_left

theorem oneOf_of_mem {c : Char} {cs : List Char} (h : c ∈ cs) :
    oneOf cs (c :: rest) = some ([c], rest) := by
  have hContains : cs.contains c = true := List.contains_iff_mem.2 h
  have hGet : (get : Reader (List Char)) (c :: rest) = some (c :: rest, c :: rest) := rfl
  rw [oneOf, StateOption.bind_of_some hGet]
  simp only [hContains]
  rfl

theorem oneOf_of_not_mem {cs : List Char} (h : ∀ c ∈ rest.head?, c ∉ cs) :
    oneOf cs rest = some ([], rest) := by
  have hGet : (get : Reader (List Char)) rest = some (rest, rest) := rfl
  rw [oneOf, StateOption.bind_of_some hGet]
  cases rest with
  | nil => rfl
  | cons c rest =>
    have hContains : cs.contains c = false := by simpa using h c rfl
    simp only [hContains]
    rfl

theorem IsFraction.head_of_ends {fraction exponent : List Char} (hFraction : IsFraction fraction)
    (hExponent : IsExponent exponent) (h : Ends rest) :
    ∀ c ∈ (fraction ++ (exponent ++ rest)).head?, c.isDigit = false := by
  intro c hc
  rcases hFraction with rfl | ⟨_, rfl, -⟩
  · rcases hExponent with rfl | ⟨mark, _, _, rfl, hMark, -⟩
    · exact h.not_isDigit c hc
    · cases hc
      fin_cases hMark <;> rfl
  · cases hc
    rfl

theorem IsExponent.head_of_ends {exponent : List Char} (hExponent : IsExponent exponent)
    (h : Ends rest) : ∀ c ∈ (exponent ++ rest).head?, c ∉ ['.'] := by
  intro c hc
  rcases hExponent with rfl | ⟨mark, _, _, rfl, hMark, -⟩
  · exact h.not_mem (by simp) c hc
  · cases hc
    fin_cases hMark <;> decide

theorem IsDigits.head {ds : List Char} (h : IsDigits ds) {cs : List Char}
    (hCs : cs.any Char.isDigit = false) : ∀ c ∈ (ds ++ rest).head?, c ∉ cs := by
  intro c hc hMem
  cases ds with
  | nil => exact h.1 rfl
  | cons d ds =>
    cases hc
    exact List.any_eq_false.1 hCs c hMem (h.2 c List.mem_cons_self)

/-- The end of `numeral`, once the part in front of the exponent was read. -/
theorem exponent_of {exponent : List Char} (hExponent : IsExponent exponent) (h : Ends rest)
    (front : List Char) :
    (do
      let mark ← oneOf ['e', 'E']
      let expSign ← if mark = [] then pure [] else oneOf ['+', '-']
      let exponent ← if mark = [] then pure [] else digits
      pure (front ++ mark ++ expSign ++ exponent) : Reader (List Char)) (exponent ++ rest) =
      some (front ++ exponent, rest) := by
  rcases hExponent with rfl | ⟨mark, sign, ds, rfl, hMark, hSign, hDigits⟩
  · have hNone : oneOf ['e', 'E'] rest = some ([], rest) :=
      oneOf_of_not_mem (h.not_mem (by simp))
    have hFront : front ++ [] ++ [] ++ [] = front ++ [] := by simp only [List.append_nil]
    rw [List.nil_append, StateOption.bind_of_some hNone]
    exact congrArg (fun r => some (r, rest)) hFront
  · have hExpSign : oneOf ['+', '-'] (sign ++ (ds ++ rest)) = some (sign, ds ++ rest) := by
      fin_cases hSign
      · exact oneOf_of_not_mem (hDigits.head (by decide))
      · exact oneOf_of_mem (by decide)
      · exact oneOf_of_mem (by decide)
    rw [List.cons_append, List.append_assoc, StateOption.bind_of_some (oneOf_of_mem hMark)]
    have hFront : front ++ [mark] ++ sign ++ ds = front ++ mark :: (sign ++ ds) := by
      simp only [List.append_assoc, List.cons_append, List.nil_append]
    refine (StateOption.bind_of_some hExpSign).trans ?_
    refine (StateOption.bind_of_some (digits_of hDigits h.not_isDigit)).trans ?_
    exact congrArg (fun r => some (r, rest)) hFront

/-- A numeral is read as it is written. -/
theorem numeral_of {cs : List Char} (hNumeral : IsNumeral cs) (h : Ends rest) :
    numeral (cs ++ rest) = some (cs, rest) := by
  obtain ⟨sign, whole, fraction, exponent, rfl, hSign, ⟨hWhole, hZero⟩, hFraction, hExponent⟩ :=
    hNumeral
  have hReadSign : oneOf ['-'] (sign ++ (whole ++ (fraction ++ (exponent ++ rest)))) =
      some (sign, whole ++ (fraction ++ (exponent ++ rest))) := by
    fin_cases hSign
    · exact oneOf_of_not_mem (hWhole.head (by decide))
    · exact oneOf_of_mem (by decide)
  have hReadWhole : digits (whole ++ (fraction ++ (exponent ++ rest))) =
      some (whole, fraction ++ (exponent ++ rest)) :=
    digits_of hWhole (hFraction.head_of_ends hExponent h)
  rw [numeral, List.append_assoc, List.append_assoc, List.append_assoc,
    StateOption.bind_of_some hReadSign, StateOption.bind_of_some hReadWhole,
    StateOption.bind_of_some (StateOption.guard_of hZero)]
  rcases hFraction with rfl | ⟨ds, rfl, hDigits⟩
  · have hNone : oneOf ['.'] (exponent ++ rest) = some ([], exponent ++ rest) :=
      oneOf_of_not_mem (hExponent.head_of_ends h)
    rw [List.nil_append, StateOption.bind_of_some hNone]
    refine (exponent_of hExponent h (sign ++ whole ++ [] ++ [])).trans ?_
    simp only [List.append_nil, List.nil_append, List.append_assoc]
  · have hRead : digits (ds ++ (exponent ++ rest)) = some (ds, exponent ++ rest) :=
      digits_of hDigits (IsFraction.head_of_ends (.inl rfl) hExponent h)
    have hPoint : oneOf ['.'] ('.' :: (ds ++ (exponent ++ rest))) =
        some (['.'], ds ++ (exponent ++ rest)) := oneOf_of_mem (by decide)
    rw [List.cons_append, StateOption.bind_of_some hPoint]
    refine (StateOption.bind_of_some hRead).trans ?_
    refine (exponent_of hExponent h (sign ++ whole ++ ['.'] ++ ds)).trans ?_
    simp only [List.append_assoc, List.cons_append, List.nil_append]

end Numbers

/-! ## Values -/

section Values

variable {v : JsonValue} {vs : List JsonValue} {ms : List (Option String × JsonValue)}
  {a b cs rest : List Char} {fuel : Nat}

theorem Ends.of_blanks (hb : Blanks b) (h : Ends rest) : Ends (b ++ rest) := by
  cases b with
  | nil => exact h
  | cons c b =>
    rintro _ ⟨⟩
    exact .inl (hb c List.mem_cons_self)

theorem IsNumeral.head (h : IsNumeral cs) :
    ∃ c more, cs = c :: more ∧ (c = '-' ∨ c.isDigit = true) := by
  obtain ⟨sign, whole, fraction, exponent, rfl, hSign, ⟨⟨hNe, hDigits⟩, -⟩, -, -⟩ := h
  obtain ⟨d, ds, rfl⟩ := List.exists_cons_of_ne_nil hNe
  fin_cases hSign
  · exact ⟨d, _, rfl, .inr (hDigits d List.mem_cons_self)⟩
  · exact ⟨'-', _, rfl, .inl rfl⟩

theorem isBlank_of_isDigit {c : Char} (h : c.isDigit = true) : isBlank c = false := by
  by_contra hBlank
  simp only [isBlank, Bool.not_eq_false, Bool.or_eq_true, decide_eq_true_eq] at hBlank
  rcases hBlank with ((rfl | rfl) | rfl) | rfl <;> cases h

/-- A value begins with a character that ends no array. -/
theorem Bare.head (h : Bare v cs) :
    ∃ c more, cs = c :: more ∧ isBlank c = false ∧ c ≠ ']' := by
  cases h with
  | number hNumeral =>
    obtain ⟨c, more, rfl, rfl | hDigit⟩ := hNumeral.head
    · exact ⟨_, more, rfl, rfl, by decide⟩
    · refine ⟨c, more, rfl, isBlank_of_isDigit hDigit, ?_⟩
      rintro rfl
      cases hDigit
  | nullWord | trueWord | falseWord => exact ⟨_, _, rfl, rfl, by decide⟩
  | string | noElements | array | noMembers | object => exact ⟨_, _, rfl, rfl, by decide⟩

theorem value_of_numeral (ha : Blanks a) (h : IsNumeral cs) (hRest : Ends rest) :
    value (fuel + 1) (a ++ (cs ++ rest)) = some (number cs, rest) := by
  have hRead := numeral_of h hRest
  obtain ⟨c, more, rfl, hc⟩ := h.head
  have hBlank : isBlank c = false := by
    rcases hc with rfl | hDigit
    · rfl
    · exact isBlank_of_isDigit hDigit
  have hNumber : (do
      set (c :: (← get))
      pure (number (← numeral)) : Reader JsonValue) (more ++ rest) =
      some (number (c :: more), rest) := by
    change (numeral >>= fun cs => pure (number cs)) (c :: more ++ rest) = _
    rw [StateOption.bind_of_some hRead]
    rfl
  rw [value, List.cons_append, StateOption.bind_of_some (next_of ha hBlank)]
  split
  iterate 6 exact absurd hc (by decide)
  exact hNumber

/-! ### Blanks that were passed already -/

theorem next_dropWhile (cs : List Char) : next (cs.dropWhile isBlank) = next cs := by
  have hRun (cs : List Char) : blanks cs = some ((), cs.dropWhile isBlank) := rfl
  rw [next, StateOption.bind_of_some (hRun cs), StateOption.bind_of_some (hRun _),
    List.dropWhile_idempotent]

theorem value_dropWhile (cs : List Char) : value fuel (cs.dropWhile isBlank) = value fuel cs := by
  cases fuel with
  | zero => rfl
  | succ fuel =>
    rw [value]
    exact StateOption.bind_congr (next_dropWhile cs)

theorem elements_dropWhile (cs : List Char) :
    elements fuel (cs.dropWhile isBlank) = elements fuel cs := by
  cases fuel with
  | zero => rfl
  | succ fuel =>
    rw [elements]
    exact StateOption.bind_congr (value_dropWhile cs)

theorem members_dropWhile (cs : List Char) :
    members fuel (cs.dropWhile isBlank) = members fuel cs := by
  cases fuel with
  | zero => rfl
  | succ fuel =>
    rw [members]
    exact StateOption.bind_congr (StateOption.bind_congr (next_dropWhile cs))

/-! ### The step of the reader for each form of a value -/

/-- All texts of the grammar that are short enough for the fuel are read, whatever follows. -/
structure Reads (fuel : Nat) : Prop where
  value_of : ∀ {v cs a rest}, Bare v cs → 2 * cs.length < fuel → Blanks a → Ends rest →
    value fuel (a ++ (cs ++ rest)) = some (v, rest)
  elements_of : ∀ {vs cs rest}, WrittenElements vs cs → 2 * cs.length < fuel →
    elements fuel (cs ++ rest) = some (vs, rest)
  members_of : ∀ {ms cs rest}, WrittenMembers ms cs → 2 * cs.length < fuel →
    members fuel (cs ++ rest) = some (ms, rest)

theorem WrittenElements.opens (h : WrittenElements vs cs) (rest : List Char) :
    ((cs ++ rest).dropWhile isBlank).head? ≠ some ']' := by
  have hHead {v : JsonValue} {cs : List Char} (h : Written v cs) (rest : List Char) :
      ((cs ++ rest).dropWhile isBlank).head? ≠ some ']' := by
    obtain ⟨ha, hBare, -⟩ := h
    obtain ⟨c, more, rfl, hBlank, hNe⟩ := hBare.head
    rw [List.append_assoc, List.dropWhile_append_of_pos ha, List.cons_append, List.cons_append,
      List.dropWhile_cons_of_neg (by simp [hBlank])]
    simpa using hNe
  cases h with
  | last h => simpa only [List.append_assoc] using hHead h _
  | more h _ => simpa only [List.append_assoc] using hHead h _

theorem WrittenMembers.opens (h : WrittenMembers ms cs) (rest : List Char) :
    ((cs ++ rest).dropWhile isBlank).head? ≠ some '\x7d' := by
  have hHead {a : List Char} (ha : Blanks a) (more : List Char) :
      ((a ++ '"' :: more ++ rest).dropWhile isBlank).head? ≠ some '\x7d' := by
    rw [List.append_assoc, List.dropWhile_append_of_pos ha, List.cons_append,
      List.dropWhile_cons_of_neg (by decide)]
    simp
  cases h with
  | last ha => exact hHead ha _
  | more ha => exact hHead ha _

/-- What stands between brackets: nothing but blanks, or what `more` reads. -/
def enclosed (close : Char) (none : JsonValue) (more : Reader JsonValue) : Reader JsonValue := do
  blanks
  if (← get).head? = some close then
    expect close
    pure none
  else more

theorem enclosed_of_blanks {close : Char} {none : JsonValue} {more : Reader JsonValue}
    (hb : Blanks b) (hClose : isBlank close = false) :
    enclosed close none more (b ++ close :: rest) = some (none, rest) := by
  have hBlanks : blanks (b ++ close :: rest) = some ((), close :: rest) :=
    blanks_of hb fun c hc => by rwa [← Option.some.inj hc]
  have hExpect : expect close (close :: rest) = some ((), rest) :=
    expect_of (a := []) nofun hClose
  rw [enclosed, StateOption.bind_of_some hBlanks]
  refine (StateOption.bind_of_some (x := get) rfl).trans ?_
  rw [List.head?_cons, if_pos rfl, StateOption.bind_of_some hExpect]
  rfl

theorem enclosed_of {close : Char} {none : JsonValue} {more : Reader JsonValue}
    (hOpens : (cs.dropWhile isBlank).head? ≠ some close)
    (hMore : more (cs.dropWhile isBlank) = some (v, rest)) :
    enclosed close none more cs = some (v, rest) := by
  have hBlanks : blanks cs = some ((), cs.dropWhile isBlank) := rfl
  rw [enclosed, StateOption.bind_of_some hBlanks]
  refine (StateOption.bind_of_some (x := get) rfl).trans ?_
  rw [if_neg hOpens, hMore]

/-- One case for each form of a value. -/
theorem value_of_bare (hReads : Reads fuel) (h : Bare v cs) (hFuel : 2 * cs.length < fuel + 1)
    (ha : Blanks a) (hRest : Ends rest) :
    value (fuel + 1) (a ++ (cs ++ rest)) = some (v, rest) := by
  cases h with
  | nullWord =>
    rw [value, List.cons_append, StateOption.bind_of_some (next_of ha (by decide))]
    exact StateOption.bind_of_some (word_of ['u', 'l', 'l'] rest)
  | trueWord =>
    rw [value, List.cons_append, StateOption.bind_of_some (next_of ha (by decide))]
    exact StateOption.bind_of_some (word_of ['r', 'u', 'e'] rest)
  | falseWord =>
    rw [value, List.cons_append, StateOption.bind_of_some (next_of ha (by decide))]
    exact StateOption.bind_of_some (word_of ['a', 'l', 's', 'e'] rest)
  | number hNumeral => exact value_of_numeral ha hNumeral hRest
  | string hSpells =>
    rw [value, List.append_assoc, List.cons_append,
      StateOption.bind_of_some (next_of ha (by decide))]
    exact StateOption.bind_of_some (stringBody_of_spells hSpells rest)
  | noElements hb =>
    rw [value, List.append_assoc, List.cons_append, List.singleton_append,
      StateOption.bind_of_some (next_of ha (by decide))]
    exact enclosed_of_blanks hb (by decide)
  | @array vs cs hElements =>
    have hRead : elements fuel ((cs ++ rest).dropWhile isBlank) = some (vs, rest) := by
      rw [List.length_cons] at hFuel
      rw [elements_dropWhile, hReads.elements_of hElements (by omega)]
    rw [value, List.cons_append, StateOption.bind_of_some (next_of ha (by decide))]
    exact enclosed_of (hElements.opens rest) (StateOption.bind_of_some hRead)
  | noMembers hb =>
    rw [value, List.append_assoc, List.cons_append, List.singleton_append,
      StateOption.bind_of_some (next_of ha (by decide))]
    exact enclosed_of_blanks hb (by decide)
  | @object ms cs hMembers =>
    have hRead : members fuel ((cs ++ rest).dropWhile isBlank) = some (ms, rest) := by
      rw [List.length_cons] at hFuel
      rw [members_dropWhile, hReads.members_of hMembers (by omega)]
    rw [value, List.cons_append, StateOption.bind_of_some (next_of ha (by decide))]
    exact enclosed_of (hMembers.opens rest) (StateOption.bind_of_some hRead)

/-- A value with blanks around it, and a character behind it that ends a number. -/
theorem value_of_written (hReads : Reads fuel) (h : Written v cs) (hFuel : 2 * cs.length < fuel)
    {c : Char} (hc : c ∈ [',', ']', '\x7d']) (rest : List Char) :
    ∃ b, Blanks b ∧ value fuel (cs ++ c :: rest) = some (v, b ++ c :: rest) := by
  obtain @⟨v, a, cs, b, ha, hBare, hb⟩ := h
  have hEnds : Ends (b ++ c :: rest) :=
    Ends.of_blanks hb fun d hd => .inr (by rwa [← Option.some.inj hd])
  refine ⟨b, hb, ?_⟩
  rw [List.length_append, List.length_append] at hFuel
  rw [List.append_assoc, List.append_assoc, hReads.value_of hBare (by omega) ha hEnds]

theorem elements_of_written (hReads : Reads fuel) (h : WrittenElements vs cs)
    (hFuel : 2 * cs.length < fuel + 1) : elements (fuel + 1) (cs ++ rest) = some (vs, rest) := by
  cases h with
  | @last v cs hValue =>
    rw [List.length_append, List.length_singleton] at hFuel
    obtain ⟨b, hb, hRead⟩ :=
      value_of_written hReads hValue (by omega) (c := ']') (by decide) rest
    rw [elements, List.append_assoc, List.singleton_append, StateOption.bind_of_some hRead,
      StateOption.bind_of_some (next_of hb (by decide))]
    rfl
  | @more v vs cs tail hValue hRest =>
    rw [List.length_append, List.length_cons] at hFuel
    obtain ⟨b, hb, hRead⟩ :=
      value_of_written hReads hValue (by omega) (c := ',') (by decide) (tail ++ rest)
    rw [elements, List.append_assoc, List.cons_append, StateOption.bind_of_some hRead,
      StateOption.bind_of_some (next_of hb (by decide))]
    exact StateOption.bind_of_some (hReads.elements_of hRest (by omega))


/-- The name of a member, with the colon behind it. -/
theorem members_of_key {t : Option (List Char)} {ks : List Char} (ha : Blanks a)
    (hKey : Spells t ks) (hb : Blanks b) :
    members (fuel + 1) (a ++ '"' :: (ks ++ '"' :: (b ++ ':' :: cs))) =
      (do
        let v ← value fuel
        match ← next with
        | ',' => pure ((t.map String.ofList, v) :: (← members fuel))
        | '\x7d' => pure [(t.map String.ofList, v)]
        | _ => failure : Reader _) cs := by
  rw [members, StateOption.bind_of_some (expect_of ha (by decide)),
    StateOption.bind_of_some (stringBody_of_spells hKey _)]
  exact StateOption.bind_of_some (expect_of hb (by decide))

theorem members_of_written (hReads : Reads fuel) (h : WrittenMembers ms cs)
    (hFuel : 2 * cs.length < fuel + 1) : members (fuel + 1) (cs ++ rest) = some (ms, rest) := by
  cases h with
  | @last t v a b ks cs ha hKey hb hValue =>
    simp only [List.length_append, List.length_cons] at hFuel
    obtain ⟨d, hd, hRead⟩ :=
      value_of_written hReads hValue (by omega) (c := '\x7d') (by decide) rest
    simp only [List.append_assoc, List.cons_append, List.nil_append]
    rw [members_of_key ha hKey hb, StateOption.bind_of_some hRead,
      StateOption.bind_of_some (next_of hd (by decide))]
    rfl
  | @more t v ms a b ks cs tail ha hKey hb hValue hRest =>
    simp only [List.length_append, List.length_cons] at hFuel
    obtain ⟨d, hd, hRead⟩ :=
      value_of_written hReads hValue (by omega) (c := ',') (by decide) (tail ++ rest)
    simp only [List.append_assoc, List.cons_append]
    rw [members_of_key ha hKey hb, StateOption.bind_of_some hRead,
      StateOption.bind_of_some (next_of hd (by decide))]
    exact StateOption.bind_of_some (hReads.members_of hRest (by omega))

/-- Whatever the fuel is, it is enough for the texts it was counted for. -/
theorem reads (fuel : Nat) : Reads fuel := by
  induction fuel with
  | zero => exact ⟨fun _ h => absurd h (Nat.not_lt_zero _), fun _ h => absurd h (Nat.not_lt_zero _),
      fun _ h => absurd h (Nat.not_lt_zero _)⟩
  | succ fuel ih =>
    exact ⟨fun h hFuel ha hRest => value_of_bare ih h hFuel ha hRest,
      fun h hFuel => elements_of_written ih h hFuel, fun h hFuel => members_of_written ih h hFuel⟩

/-- **Every text of a value is read as the value.** -/
theorem parse?_of_written {text : String} (h : Written v text.toList) : parse? text = some v := by
  generalize hText : text.toList = cs at h
  obtain @⟨v, a, cs, b, ha, hBare, hb⟩ := h
  have hEnds : Ends b := by
    intro c hc
    exact .inl (hb c (List.mem_of_mem_head? hc))
  have hRead : value (2 * (a ++ (cs ++ b)).length + 2) (a ++ (cs ++ b)) = some (v, b) := by
    refine (reads _).value_of hBare ?_ ha hEnds
    simp only [List.length_append]
    omega
  have hAll : b.all isBlank = true := List.all_eq_true.2 hb
  rw [parse?, hText]
  simp only [hRead, hAll, if_true]

end Values

end SshKeys.JsonValue
