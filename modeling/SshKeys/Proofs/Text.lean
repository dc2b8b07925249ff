import Mathlib.Data.List.Basic
import Mathlib.Data.List.Infix
import SshKeys.Text.Blank
import SshKeys.Text.Search

/-!
# Finding and trimming

A text is cut at the first occurrence of a pattern, which `SplitsAt` describes
(`cut?_eq_some_iff`).  A pattern that is `isSolid`, that is, neither begins nor ends
with a blank, is found in a text wherever it is found in the trimmed text:

* `cut?_append_blanks`: blanks behind a text stay behind what `cut?` gives.
* `contains_trim`: trimming does not change which solid patterns occur.
* `infix_of_lines`: a pattern without line feeds that occurs in a text occurs in
  one of its lines.
* `words_append`: a word in front of a blank is the first word of a text.
* `words_trim`, `words_joined`: neither the blanks around words nor the way they are
  separated can be told from the words.
-/

namespace SshKeys.Text

variable {pat s x y m before after : List Char}

/-! ## Occurrences -/

theorem cut?_of_front (h : pat <+: s) : cut? pat s = some ([], s.drop pat.length) := by
  rw [cut?.eq_def, if_pos (List.isPrefixOf_iff_prefix.2 h)]

theorem cut?_cons {c : Char} (h : ¬pat <+: c :: s) :
    cut? pat (c :: s) = (cut? pat s).map fun (before, after) => (c :: before, after) := by
  rw [cut?, if_neg (by rwa [List.isPrefixOf_iff_prefix])]

theorem cut?_nil (h : pat ≠ []) : cut? pat [] = none := by
  rw [cut?, if_neg (by rwa [List.isPrefixOf_iff_prefix, List.prefix_nil])]

theorem isSome_cut?_iff : (cut? pat s).isSome = true ↔ pat <:+: s := by
  induction s with
  | nil =>
    by_cases h : pat = []
    · rw [h]
      exact ⟨fun _ => List.infix_rfl, fun _ => rfl⟩
    · rw [cut?_nil h, List.infix_nil]
      exact ⟨fun hSome => (nomatch hSome), fun hNil => absurd hNil h⟩
  | cons c s ih =>
    rw [List.infix_cons_iff]
    by_cases h : pat <+: c :: s
    · rw [cut?_of_front h]
      exact ⟨fun _ => .inl h, fun _ => rfl⟩
    · rw [cut?_cons h, Option.isSome_map, ih]
      exact ⟨.inr, fun hOr => hOr.resolve_left h⟩

theorem contains_iff {t p : String} : contains t p = true ↔ p.toList <:+: t.toList := by
  rw [contains, isSome_cut?_iff]

/-- `before` and `after` are what stands around the first occurrence of `pat` in `s`. -/
structure SplitsAt (pat s before after : List Char) : Prop where
  eq : s = before ++ (pat ++ after)
  first : ∀ before' after', s = before' ++ (pat ++ after') → before.length ≤ before'.length

theorem SplitsAt.front (h : pat <+: s) : SplitsAt pat s [] (s.drop pat.length) where
  eq := by
    obtain ⟨after, rfl⟩ := h
    rw [List.drop_left, List.nil_append]
  first _ _ _ := Nat.zero_le _

theorem SplitsAt.cons {c : Char} (hNot : ¬pat <+: c :: s) (h : SplitsAt pat s before after) :
    SplitsAt pat (c :: s) (c :: before) after where
  eq := by rw [List.cons_append, ← h.eq]
  first before' after' hEq := by
    cases before' with
    | nil => exact absurd (hEq ▸ List.prefix_append pat after') hNot
    | cons d before' =>
      obtain ⟨-, hRest⟩ := List.cons.inj hEq
      exact Nat.succ_le_succ (h.first before' after' hRest)

/-- There is but one first occurrence. -/
theorem SplitsAt.unique {before' after' : List Char} (h : SplitsAt pat s before after)
    (h' : SplitsAt pat s before' after') : before = before' ∧ after = after' := by
  have hLength : before.length = before'.length :=
    Nat.le_antisymm (h.first _ _ h'.eq) (h'.first _ _ h.eq)
  obtain ⟨hBefore, hRest⟩ := List.append_inj (h.eq.symm.trans h'.eq) hLength
  exact ⟨hBefore, List.append_cancel_left hRest⟩

theorem splitsAt_of_cut? (h : cut? pat s = some (before, after)) : SplitsAt pat s before after := by
  induction s generalizing before with
  | nil =>
    by_cases hPat : pat <+: []
    · rw [cut?_of_front hPat] at h
      cases h
      exact .front hPat
    · rw [cut?_nil fun hNil => hPat (hNil ▸ List.prefix_rfl)] at h
      cases h
  | cons c s ih =>
    by_cases hPat : pat <+: c :: s
    · rw [cut?_of_front hPat] at h
      cases h
      exact .front hPat
    · rw [cut?_cons hPat] at h
      obtain ⟨⟨before', after'⟩, hCut, hPair⟩ := Option.map_eq_some_iff.1 h
      cases hPair
      exact (ih hCut).cons hPat

/-- **A text is cut where the pattern stands first.** -/
theorem cut?_eq_some_iff : cut? pat s = some (before, after) ↔ SplitsAt pat s before after := by
  refine ⟨splitsAt_of_cut?, fun h => ?_⟩
  have hInfix : pat <:+: s := ⟨before, after, by rw [h.eq, List.append_assoc]⟩
  obtain ⟨⟨before', after'⟩, hCut⟩ := Option.isSome_iff_exists.1 (isSome_cut?_iff.2 hInfix)
  obtain ⟨rfl, rfl⟩ := h.unique (splitsAt_of_cut? hCut)
  exact hCut

/-- The first occurrence of a pattern behind a text without its first character. -/
theorem cut?_append_self {d : Char} (h : d ∉ before) :
    cut? (d :: pat) (before ++ (d :: pat ++ after)) = some (before, after) := by
  induction before with
  | nil => rw [List.nil_append, cut?_of_front (List.prefix_append ..), List.drop_left]
  | cons c before ih =>
    obtain ⟨hc, hBefore⟩ := not_or.1 (mt List.mem_cons.2 h)
    have hPrefix : ¬d :: pat <+: c :: (before ++ (d :: pat ++ after)) := fun hp =>
      hc (List.cons_prefix_cons.1 hp).1
    rw [List.cons_append, cut?_cons hPrefix, ih hBefore]
    rfl

/-! ## Patterns between blanks -/

def Blanks (s : List Char) : Prop :=
  ∀ c ∈ s, isBlank c = true

/-- A text that is not empty and neither begins nor ends with a blank. -/
def isSolid (s : List Char) : Bool :=
  s.head?.any (!isBlank ·) && s.getLast?.any (!isBlank ·)

theorem exists_cons_of_isSolid (h : isSolid s = true) :
    ∃ c t, s = c :: t ∧ isBlank c = false := by
  obtain ⟨hHead, -⟩ := Bool.and_eq_true_iff.1 h
  cases s with
  | nil => cases hHead
  | cons c t => exact ⟨c, t, rfl, by simpa using hHead⟩

theorem exists_concat_of_isSolid (h : isSolid s = true) :
    ∃ t c, s = t ++ [c] ∧ isBlank c = false := by
  obtain ⟨-, hLast⟩ := Bool.and_eq_true_iff.1 h
  rcases List.eq_nil_or_concat' s with rfl | ⟨t, c, rfl⟩
  · cases hLast
  · exact ⟨t, c, rfl, by simpa using hLast⟩

/-- A solid pattern does not reach into the blanks behind a text. -/
theorem prefix_of_prefix_append (hPat : isSolid pat = true) (hx : Blanks x) (h : pat <+: s ++ x) :
    pat <+: s := by
  obtain ⟨t, c, rfl, hc⟩ := exists_concat_of_isSolid hPat
  obtain ⟨rest, hRest⟩ := h
  rcases List.append_eq_append_iff.1 hRest with ⟨u, hs, -⟩ | ⟨u, hPat', hu⟩
  · exact ⟨u, hs.symm⟩
  · rcases List.eq_nil_or_concat' u with rfl | ⟨v, d, rfl⟩
    · rw [List.append_nil] at hPat'
      rw [hPat']
    · have hd : c = d := by
        have hLast := congrArg List.getLast? hPat'
        simpa using hLast
      have hBlank := hx d (by rw [hu]; simp)
      rw [← hd, hc] at hBlank
      cases hBlank

theorem cut?_blanks (hPat : isSolid pat = true) (hx : Blanks x) : cut? pat x = none := by
  rw [← Option.not_isSome_iff_eq_none, isSome_cut?_iff]
  intro h
  obtain ⟨c, t, rfl, hc⟩ := exists_cons_of_isSolid hPat
  have hBlank := hx c (h.subset List.mem_cons_self)
  rw [hc] at hBlank
  cases hBlank

theorem cut?_append_blanks (hPat : isSolid pat = true) (hx : Blanks x) :
    cut? pat (s ++ x) = (cut? pat s).map fun (before, after) => (before, after ++ x) := by
  induction s with
  | nil =>
    obtain ⟨c, t, rfl, -⟩ := exists_cons_of_isSolid hPat
    rw [List.nil_append, cut?_blanks hPat hx, cut?_nil (List.cons_ne_nil _ _)]
    rfl
  | cons c s ih =>
    by_cases h : pat <+: c :: s
    · obtain ⟨rest, hRest⟩ := h
      rw [← hRest, cut?_of_front (List.prefix_append ..), List.append_assoc,
        cut?_of_front (List.prefix_append ..), List.drop_left, List.drop_left]
      rfl
    · have hMore : ¬pat <+: c :: (s ++ x) := fun hp => h (prefix_of_prefix_append hPat hx hp)
      rw [List.cons_append, cut?_cons hMore, ih, cut?_cons h, Option.map_map, Option.map_map]
      rfl

theorem cut?_blanks_append (hPat : isSolid pat = true) (hx : Blanks x) :
    cut? pat (x ++ s) = (cut? pat s).map fun (before, after) => (x ++ before, after) := by
  induction x with
  | nil => simp
  | cons c x ih =>
    have hMore : ¬pat <+: c :: (x ++ s) := fun hp => by
      obtain ⟨d, t, rfl, hd⟩ := exists_cons_of_isSolid hPat
      have hBlank := hx c List.mem_cons_self
      rw [← (List.cons_prefix_cons.1 hp).1, hd] at hBlank
      cases hBlank
    rw [List.cons_append, cut?_cons hMore, ih fun d hd => hx d (List.mem_cons_of_mem c hd),
      Option.map_map]
    rfl

/-- A text without blanks is solid. -/
theorem isSolid_of_forall (hNe : s ≠ []) (h : ∀ c ∈ s, isBlank c = false) : isSolid s = true := by
  obtain ⟨c, t, hCons⟩ := List.exists_cons_of_ne_nil hNe
  obtain ⟨u, d, hConcat⟩ := (List.eq_nil_or_concat' s).resolve_left hNe
  refine Bool.and_eq_true_iff.2 ⟨?_, ?_⟩
  · have hc := h c (by rw [hCons]; exact List.mem_cons_self)
    rw [hCons, List.head?_cons, Option.any_some, hc]
    rfl
  · have hd := h d (by rw [hConcat]; simp)
    rw [hConcat, List.getLast?_concat, Option.any_some, hd]
    rfl

/-- What stands between solid texts makes no difference. -/
theorem isSolid_append (hx : isSolid x = true) (hy : isSolid y = true) :
    isSolid (x ++ (m ++ y)) = true := by
  obtain ⟨c, t, rfl, hc⟩ := exists_cons_of_isSolid hx
  obtain ⟨u, d, rfl, hd⟩ := exists_concat_of_isSolid hy
  refine Bool.and_eq_true_iff.2 ⟨?_, ?_⟩
  · rw [List.cons_append, List.head?_cons, Option.any_some, hc]
    rfl
  · rw [← List.append_assoc, ← List.append_assoc, List.getLast?_concat, Option.any_some, hd]
    rfl

/-! ## Trimming -/

theorem trimStart_append (hx : Blanks x) : trimStart (x ++ s) = trimStart s := by
  rw [trimStart, List.dropWhile_append_of_pos hx]
  rfl

theorem trimEnd_append (hy : Blanks y) : trimEnd (s ++ y) = trimEnd s := by
  have hReverse : ∀ c ∈ y.reverse, isBlank c = true := fun c hc => hy c (List.mem_reverse.1 hc)
  rw [trimEnd, List.reverse_append, List.dropWhile_append_of_pos hReverse]
  rfl

theorem trimList_eq (hx : Blanks x) (hy : Blanks y) (hm : m = [] ∨ isSolid m = true) :
    trimList (x ++ (m ++ y)) = m := by
  rw [trimList, trimStart_append hx]
  rcases hm with rfl | hm
  · have hNil : trimStart ([] ++ y) = [] := by
      rw [List.nil_append, ← List.append_nil y, trimStart_append hy]
      rfl
    rw [hNil]
    rfl
  · obtain ⟨c, t, hCons, hc⟩ := exists_cons_of_isSolid hm
    obtain ⟨u, d, hConcat, hd⟩ := exists_concat_of_isSolid hm
    have hStart : trimStart (m ++ y) = m ++ y := by
      rw [hCons, List.cons_append, trimStart, List.dropWhile_cons_of_neg (by rw [hc]; decide)]
    rw [hStart, trimEnd_append hy, hConcat, trimEnd, List.reverse_append, List.reverse_singleton,
      List.singleton_append, List.dropWhile_cons_of_neg (by rw [hd]; decide), List.reverse_cons,
      List.reverse_reverse]

theorem blanks_takeWhile (s : List Char) : Blanks (s.takeWhile isBlank) :=
  List.all_eq_true.1 List.all_takeWhile

theorem head?_dropWhile (s : List Char) : ∀ c ∈ (s.dropWhile isBlank).head?, isBlank c = false := by
  intro c hc
  have h := List.head?_dropWhile_not isBlank s
  rw [Option.mem_def.1 hc] at h
  exact h

/-- A text is its trimmed form between blanks. -/
theorem exists_trimList (s : List Char) :
    ∃ x y, Blanks x ∧ Blanks y ∧ s = x ++ (trimList s ++ y) ∧
      (trimList s = [] ∨ isSolid (trimList s) = true) := by
  have hEnd : trimStart s =
      trimList s ++ ((trimStart s).reverse.takeWhile isBlank).reverse := by
    rw [trimList, trimEnd, ← List.reverse_append, List.takeWhile_append_dropWhile,
      List.reverse_reverse]
  refine ⟨s.takeWhile isBlank, ((trimStart s).reverse.takeWhile isBlank).reverse,
    blanks_takeWhile s, fun c hc => blanks_takeWhile _ c (List.mem_reverse.1 hc), ?_, ?_⟩
  · rw [← hEnd]
    exact List.takeWhile_append_dropWhile.symm
  · by_cases hNil : trimList s = []
    · exact .inl hNil
    · obtain ⟨c, t, hCons⟩ := List.exists_cons_of_ne_nil hNil
      obtain ⟨u, d, hConcat⟩ := (List.eq_nil_or_concat' (trimList s)).resolve_left hNil
      have hc : isBlank c = false := by
        refine head?_dropWhile s c ?_
        rw [hCons, List.cons_append] at hEnd
        exact congrArg List.head? hEnd
      have hd : isBlank d = false := by
        refine head?_dropWhile (trimStart s).reverse d ?_
        have hReverse := congrArg List.reverse hConcat
        rw [trimList, trimEnd, List.reverse_reverse, List.reverse_concat] at hReverse
        rw [hReverse]
        rfl
      refine .inr (Bool.and_eq_true_iff.2 ⟨?_, ?_⟩)
      · rw [hCons]
        simp [hc]
      · rw [hConcat]
        simp [hd]

theorem toList_trim (t : String) : (trim t).toList = trimList t.toList :=
  String.toList_ofList

theorem trim_trim (t : String) : trim (trim t) = trim t := by
  obtain ⟨x, y, hx, hy, -, hSolid⟩ := exists_trimList t.toList
  have hNil : Blanks [] := fun c hc => nomatch hc
  have hAgain := trimList_eq hNil hNil hSolid
  rw [List.nil_append, List.append_nil] at hAgain
  rw [trim, toList_trim, hAgain]
  rfl

/-- A solid text is trimmed already. -/
theorem trim_of_isSolid {t : String} (h : isSolid t.toList = true) : trim t = t := by
  have hNil : Blanks [] := fun c hc => nomatch hc
  have hList := trimList_eq hNil hNil (.inr h)
  rw [List.nil_append, List.append_nil] at hList
  rw [trim, hList, String.ofList_toList]

/-- A trimmed text is empty or solid. -/
theorem isSolid_trim (t : String) : trim t = "" ∨ isSolid (trim t).toList = true := by
  obtain ⟨_, _, -, -, -, hSolid⟩ := exists_trimList t.toList
  rw [toList_trim]
  refine hSolid.imp_left fun hNil => ?_
  rw [trim, hNil]

theorem contains_trim {t p : String} (hPat : isSolid p.toList = true) :
    contains (trim t) p = contains t p := by
  obtain ⟨x, y, hx, hy, hSplit, -⟩ := exists_trimList t.toList
  rw [contains, contains, toList_trim]
  conv_rhs => rw [hSplit, cut?_blanks_append hPat hx, cut?_append_blanks hPat hy]
  simp only [Option.isSome_map]

/-! ## Lines -/

theorem not_prefix_cons {c : Char} (h : c ∉ pat) (hPat : pat ≠ []) : ¬pat <+: c :: s := by
  intro hp
  obtain ⟨d, t, rfl⟩ := List.exists_cons_of_ne_nil hPat
  rw [(List.cons_prefix_cons.1 hp).1] at h
  exact h List.mem_cons_self

theorem infix_append_cons_iff {c : Char} {l r : List Char} (h : c ∉ pat) :
    pat <:+: l ++ c :: r ↔ pat <:+: l ∨ pat <:+: r := by
  constructor
  · intro hInfix
    by_cases hPat : pat = []
    · rw [hPat]
      exact .inl (List.nil_infix)
    rcases List.infix_append_iff_ne_nil.1 hInfix with hl | hr | ⟨l₁, l₂, -, hNe, rfl, -, hr⟩
    · exact .inl hl
    · rw [List.infix_cons_iff] at hr
      exact .inr (hr.resolve_left (not_prefix_cons h hPat))
    · exact absurd hr (not_prefix_cons (fun hc => h (List.mem_append_right l₁ hc)) hNe)
  · rintro (hl | hr)
    · exact hl.trans (List.prefix_append ..).isInfix
    · exact hr.trans ((List.suffix_cons c r).trans (List.suffix_append ..)).isInfix

/-- A pattern without line feeds does not reach from one line into the next. -/
theorem contains_append_line {t u p : String} (h : '\n' ∉ p.toList) :
    contains (t ++ "\n" ++ u) p = (contains t p || contains u p) := by
  have hLine : "\n".toList = ['\n'] := rfl
  rw [Bool.eq_iff_iff, Bool.or_eq_true, contains_iff, contains_iff, contains_iff,
    String.toList_append, String.toList_append, hLine, List.append_assoc, List.singleton_append,
    infix_append_cons_iff h]

theorem infix_of_lines {lines : List (List Char)} (hPat : pat ≠ []) (hFeed : '\n' ∉ pat)
    (h : pat <:+: lines.flatMap (· ++ ['\n'])) : ∃ l ∈ lines, pat <:+: l := by
  induction lines with
  | nil => exact absurd (List.infix_nil.1 h) hPat
  | cons l lines ih =>
    rw [List.flatMap_cons, List.append_assoc, List.singleton_append,
      infix_append_cons_iff hFeed] at h
    rcases h with h | h
    · exact ⟨l, List.mem_cons_self, h⟩
    · obtain ⟨l', hl', h'⟩ := ih h
      exact ⟨l', List.mem_cons_of_mem l hl', h'⟩

/-! ## Words -/

/-- The run being read goes on up to the next blank. -/
theorem wordsFrom_append_blank {w rest : List Char} {b : Char} (hw : ∀ c ∈ w, isBlank c = false)
    (hb : isBlank b = true) (word : List Char) (hNe : word ++ w ≠ []) :
    wordsFrom word (w ++ b :: rest) = (word ++ w) :: wordsFrom [] rest := by
  induction w generalizing word with
  | nil =>
    rw [List.append_nil] at hNe ⊢
    rw [List.nil_append, wordsFrom, if_pos hb, if_neg hNe]
  | cons c w ih =>
    have hc := hw c List.mem_cons_self
    rw [List.cons_append, wordsFrom, if_neg (by rw [hc]; decide),
      ih (fun d hd => hw d (List.mem_cons_of_mem c hd)) _ (by simp)]
    simp only [List.append_assoc, List.singleton_append]

theorem wordsFrom_word {w : List Char} (hw : ∀ c ∈ w, isBlank c = false) (word : List Char)
    (hNe : word ++ w ≠ []) : wordsFrom word w = [word ++ w] := by
  induction w generalizing word with
  | nil =>
    rw [List.append_nil] at hNe ⊢
    rw [wordsFrom, if_neg hNe]
  | cons c w ih =>
    have hc := hw c List.mem_cons_self
    rw [wordsFrom, if_neg (by rw [hc]; decide),
      ih (fun d hd => hw d (List.mem_cons_of_mem c hd)) _ (by simp)]
    simp only [List.append_assoc, List.singleton_append]

/-- A run of characters that are not blank. -/
def IsWord (w : String) : Prop :=
  w ≠ "" ∧ ∀ c ∈ w.toList, isBlank c = false

theorem IsWord.ne_nil {w : String} (h : IsWord w) : w.toList ≠ [] := by
  intro hNil
  exact h.1 (String.toList_eq_nil_iff.1 hNil)

theorem IsWord.isSolid {w : String} (h : IsWord w) : isSolid w.toList = true :=
  isSolid_of_forall h.ne_nil h.2

/-- **A word in front of a blank is the first word.** -/
theorem words_append {w : String} (hw : IsWord w) (rest : String) :
    words (w ++ " " ++ rest) = w :: words rest := by
  have hSpace : " ".toList = [' '] := rfl
  rw [words, String.toList_append, String.toList_append, hSpace, List.append_assoc,
    List.singleton_append, wordsFrom_append_blank hw.2 (by decide) [] hw.ne_nil, List.map_cons,
    List.nil_append, String.ofList_toList]
  rfl

theorem words_word {w : String} (hw : IsWord w) : words w = [w] := by
  rw [words, wordsFrom_word hw.2 [] hw.ne_nil, List.map_singleton, List.nil_append,
    String.ofList_toList]

theorem wordsFrom_spec (word s : List Char) (hWord : ∀ c ∈ word, isBlank c = false) :
    ∀ w ∈ wordsFrom word s, w ≠ [] ∧ ∀ c ∈ w, isBlank c = false := by
  induction s generalizing word with
  | nil =>
    intro w hw
    rw [wordsFrom] at hw
    split at hw
    · cases hw
    · next hNe =>
      cases List.mem_singleton.1 hw
      exact ⟨hNe, hWord⟩
  | cons c s ih =>
    have hNil : ∀ c ∈ ([] : List Char), isBlank c = false := fun _ hc => nomatch hc
    rw [wordsFrom]
    split
    · split
      · exact ih [] hNil
      · next hNe =>
        intro w hw
        rcases List.mem_cons.1 hw with rfl | hw
        · exact ⟨hNe, hWord⟩
        · exact ih [] hNil w hw
    · next hc =>
      refine ih _ fun d hd => ?_
      rcases List.mem_append.1 hd with hd | hd
      · exact hWord d hd
      · cases List.mem_singleton.1 hd
        exact Bool.not_eq_true _ ▸ hc

theorem isWord_of_mem_words {s w : String} (h : w ∈ words s) : IsWord w := by
  obtain ⟨cs, hcs, rfl⟩ := List.mem_map.1 h
  obtain ⟨hNe, hBlank⟩ := wordsFrom_spec [] s.toList (fun _ hc => nomatch hc) cs hcs
  rw [IsWord, String.toList_ofList]
  refine ⟨fun hEmpty => hNe ?_, hBlank⟩
  rw [← String.toList_ofList (l := cs), hEmpty]
  rfl

theorem wordsFrom_blanks (hx : Blanks x) : wordsFrom [] x = [] := by
  induction x with
  | nil => rfl
  | cons c x ih =>
    rw [wordsFrom, if_pos (hx c List.mem_cons_self), if_pos rfl]
    exact ih fun d hd => hx d (List.mem_cons_of_mem c hd)

theorem wordsFrom_blanks_append (hx : Blanks x) : wordsFrom [] (x ++ s) = wordsFrom [] s := by
  induction x with
  | nil => rfl
  | cons c x ih =>
    rw [List.cons_append, wordsFrom, if_pos (hx c List.mem_cons_self), if_pos rfl]
    exact ih fun d hd => hx d (List.mem_cons_of_mem c hd)

theorem wordsFrom_append_blanks (hy : Blanks y) (word : List Char) :
    wordsFrom word (s ++ y) = wordsFrom word s := by
  induction s generalizing word with
  | nil =>
    rw [List.nil_append]
    cases y with
    | nil => rfl
    | cons c y =>
      have hRest := wordsFrom_blanks fun d hd => hy d (List.mem_cons_of_mem c hd)
      simp only [wordsFrom, if_pos (hy c List.mem_cons_self), hRest]
  | cons c s ih => simp only [List.cons_append, wordsFrom, ih]

/-- The blanks around a text are in none of its words. -/
theorem words_trim (t : String) : words (trim t) = words t := by
  obtain ⟨x, y, hx, hy, hSplit, -⟩ := exists_trimList t.toList
  rw [words, words, toList_trim]
  conv_rhs => rw [hSplit, wordsFrom_blanks_append hx, wordsFrom_append_blanks hy]

/-- **Words that are joined are told apart again.** -/
theorem words_joined {ws : List String} (h : ∀ w ∈ ws, IsWord w) :
    words (String.intercalate " " ws) = ws := by
  induction ws with
  | nil => rfl
  | cons w ws ih =>
    have hw := h w List.mem_cons_self
    cases ws with
    | nil => rw [String.intercalate_singleton, words_word hw]
    | cons v ws =>
      rw [String.intercalate_cons_cons, words_append hw,
        ih fun u hu => h u (List.mem_cons_of_mem w hu)]

end SshKeys.Text
