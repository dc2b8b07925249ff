import Mathlib.Control.Basic
import SshKeys.Pem
import SshKeys.Proofs.Armor

/-!
# Textual encoding read back

`decode?_file`: **the strict reader gives back the document of a text that
`encode` writes**; `input?_file` is the same for any width of the lines.
`contains_file` finds a marker in such a text by looking at its first and its
last line alone.

As bytes, the text is a `block`: two marker lines around a body.  It is taken
apart by `encapsulated?_block`, `exists_body` and `content?_lines`, in the order
in which the reader does it.
-/

namespace SshKeys.Pem

open SshKeys.Bytes (isAscii isAscii_iff isAscii_append)

/-! ## Marker lines -/

/-- The bytes of a text with its two marker lines, without a line end behind it. -/
def block (name body : Bytes) : Bytes :=
  beginStart ++ (name ++ (dashes ++ (lineFeed :: (body ++ (lineFeed :: (endStart ++
    (name ++ dashes)))))))

theorem dashes_eq : dashes = [45, 45, 45, 45, 45] := by
  rw [dashes, Bytes.ofString_ascii (by decide)]
  decide

theorem beforeEol?_feed {b : Bytes} (h : b.getLast? ≠ some carriageReturn) :
    beforeEol? (b ++ [lineFeed]) = some b := by
  rcases List.eq_nil_or_concat' b with rfl | ⟨c, x, rfl⟩
  · rfl
  · have hx : x ≠ 13 := fun hx => h (by rw [hx]; simp [carriageReturn])
    rw [beforeEol?, List.reverse_append, List.reverse_append]
    simp only [List.reverse_singleton, List.singleton_append, lineFeed]
    split
    · next hEq =>
      injection hEq with _ hEq
      injection hEq with hEq _
      exact absurd hEq hx
    · next hEq =>
      injection hEq with _ hEq
      rw [← hEq, List.reverse_cons, List.reverse_reverse]
    · next hEq => cases hEq
    · next h2 _ => exact absurd rfl (h2 _)

theorem withoutEol_concat {b : Bytes} {x : UInt8} (hFeed : x ≠ 10) (hReturn : x ≠ 13) :
    withoutEol (b ++ [x]) = b ++ [x] := by
  have hNone : beforeEol? (b ++ [x]) = none := by
    rw [beforeEol?, List.reverse_append]
    simp only [List.reverse_singleton, List.singleton_append]
    split
    · next hEq =>
      injection hEq with hEq _
      exact absurd hEq hFeed
    · next hEq =>
      injection hEq with hEq _
      exact absurd hEq hFeed
    · next hEq =>
      injection hEq with hEq _
      exact absurd hEq hReturn
    · rfl
  rw [withoutEol, hNone]
  rfl

theorem before?_append (suffix b : Bytes) : before? suffix (b ++ suffix) = some b := by
  rw [before?, if_pos (List.isSuffixOf_iff_suffix.2 (List.suffix_append ..)), List.length_append,
    Nat.add_sub_cancel, List.take_left]

/-- A name that is read as the label of the marker line it stands in. -/
def IsLabel (name : Bytes) : Prop :=
  ∀ rest, label true (name ++ (dashes ++ rest)) = (name, dashes ++ rest)

theorem encapsulated?_block {name body : Bytes} (hName : IsLabel name)
    (hBody : body.getLast? ≠ some carriageReturn) :
    encapsulated? (block name body) = some (name, body) := by
  have hBegin : beginStart.isPrefixOf (block name body) = true :=
    List.isPrefixOf_iff_prefix.2 (List.prefix_append ..)
  have hDrop : (block name body).drop beginStart.length = name ++ (dashes ++ (lineFeed ::
      (body ++ (lineFeed :: (endStart ++ (name ++ dashes)))))) := List.drop_left
  have hDashes (rest : Bytes) : dashes.isPrefixOf (dashes ++ rest) = true :=
    List.isPrefixOf_iff_prefix.2 (List.prefix_append ..)
  have hEol (rest : Bytes) : afterEol? (lineFeed :: rest) = some rest := rfl
  have hSplit : body ++ lineFeed :: (endStart ++ (name ++ dashes)) =
      (((body ++ [lineFeed]) ++ endStart) ++ name) ++ dashes := by
    simp
  have hWithout (b : Bytes) : withoutEol (b ++ dashes) = b ++ dashes := by
    have hConcat : b ++ dashes = (b ++ [45, 45, 45, 45]) ++ [45] := by
      rw [dashes_eq, List.append_assoc]
      rfl
    rw [hConcat]
    exact withoutEol_concat (by decide) (by decide)
  rw [encapsulated?, if_pos hBegin]
  simp only [Option.bind_eq_bind, Option.bind_some, hDrop, hName _, hDashes, guard, if_true,
    Option.pure_def, List.drop_left, hEol, hSplit, hWithout, before?_append,
    beforeEol?_feed hBody]

/-! ## Lines -/

/-- The lines of a body, joined by line feeds. -/
theorem exists_body {width : Nat} (hWidth : 0 < width) {symbols : Bytes} (hNe : symbols ≠ [])
    (hEol : ∀ x ∈ symbols, x ≠ 10 ∧ x ≠ 13) :
    ∃ body, (chunks width symbols).flatMap (· ++ [lineFeed]) = body ++ [lineFeed] ∧ body ≠ [] ∧
      body.getLast? ≠ some carriageReturn ∧ lines? width body = some (chunks width symbols) := by
  induction hk : symbols.length using Nat.strongRecOn generalizing symbols with
  | _ k ih =>
    have hPos : 0 < symbols.length := List.length_pos_iff.2 hNe
    rw [chunks, if_neg (by omega)]
    by_cases hLong : width < symbols.length
    · obtain ⟨body, hBody, hBodyNe, hLast, hLines⟩ := ih (symbols.drop width).length
        (by rw [List.length_drop]; omega)
        (List.ne_nil_of_length_pos (by rw [List.length_drop]; omega))
        (fun x hx => hEol x (List.mem_of_mem_drop hx)) rfl
      have hTake : (symbols.take width).length = width := List.length_take_of_le (by omega)
      refine ⟨symbols.take width ++ lineFeed :: body, ?_, by simp, ?_, ?_⟩
      · rw [List.flatMap_cons, hBody]
        simp
      · obtain ⟨c, x, rfl⟩ := (List.eq_nil_or_concat' body).resolve_left hBodyNe
        rw [List.getLast?_concat] at hLast
        rw [← List.cons_append, ← List.append_assoc, List.getLast?_concat]
        exact hLast
      · have hBodyPos : 0 < body.length := List.length_pos_iff.2 hBodyNe
        rw [lines?, dif_pos (by rw [List.length_append, List.length_cons]; omega)]
        split
        · next hNone =>
          rw [List.drop_left' hTake] at hNone
          cases hNone
        · next rest hRest =>
          rw [List.drop_left' hTake] at hRest
          cases hRest
          rw [hLines, List.take_left' hTake]
          rfl
    · obtain ⟨c, x, rfl⟩ := (List.eq_nil_or_concat' symbols).resolve_left hNe
      obtain ⟨hFeed, hReturn⟩ := hEol x (by simp)
      rw [List.drop_eq_nil_of_le (by omega), List.take_of_length_le (by omega), chunks_nil]
      refine ⟨c ++ [x], by simp, hNe, ?_, ?_⟩
      · rw [List.getLast?_concat]
        exact fun hEq => hReturn (Option.some.inj hEq)
      · rw [lines?, dif_neg hLong, if_neg hNe, withoutEol_concat hFeed hReturn]

/-! ## Base64 -/

theorem groups_encode {b : Bytes} (h : b.length % 3 = 0) : groups (Base64.encode b) = b := by
  fun_induction Base64.encode b with
  | case1 => rfl
  | case2 a n => simp at h
  | case3 a b n => simp at h
  | case4 a b c rest n ih =>
    have hRest : rest.length % 3 = 0 := by
      simp only [List.length_cons] at h
      omega
    have hGroup := Base64.decode_encode [a, b, c]
    simp only [Base64.encode] at hGroup
    rw [groups, hGroup]
    simp only [List.length_cons, List.length_nil, ih hRest, if_true]
    rfl

/-- A byte string is whole groups of three and a last group. -/
theorem exists_lastGroup {b : Bytes} (h : b ≠ []) :
    ∃ front last, b = front ++ last ∧ front.length % 3 = 0 ∧ (Base64.encode last).length = 4 := by
  have hPos : 0 < b.length := List.length_pos_iff.2 h
  refine ⟨b.take ((b.length - 1) / 3 * 3), b.drop ((b.length - 1) / 3 * 3),
    (List.take_append_drop _ b).symm, ?_, ?_⟩
  · rw [List.length_take_of_le (by omega)]
    omega
  · rw [Base64.length_encode, List.length_drop]
    omega

theorem content?_lines {ls : List Bytes} {document : Bytes} (hNe : document ≠ [])
    (hLines : ls.flatten = Base64.encode document) (hLast : ls.getLast? ≠ some []) :
    content? ls = some { source := .armor false, bytes := document } := by
  obtain ⟨front, last, rfl, hFront, hLength⟩ := exists_lastGroup hNe
  have hSymbols : ls.flatten = Base64.encode front ++ Base64.encode last := by
    rw [hLines, Base64.encode_append hFront]
  have hFrontLength := Base64.length_encode front
  have hFour : (Base64.encode front ++ Base64.encode last).length - 4 =
      (Base64.encode front).length := by
    rw [List.length_append, hLength]
    omega
  have hCount : (Base64.encode front).length / 4 * 3 = front.length := by omega
  have hGuard : (Base64.encode front ++ Base64.encode last).length % 4 = 0 ∧
      Base64.encode front ++ Base64.encode last ≠ [] := by
    rw [← hSymbols, hLines]
    exact ⟨by rw [Base64.length_encode]; omega, Base64.encode_ne_nil hNe⟩
  rw [content?, hSymbols]
  simp only [guard, hGuard, hFour, List.take_left, List.drop_left, Base64.decode_encode, hLast,
    groups_encode hFront, hCount, Option.bind_eq_bind, Option.bind_some, Option.pure_def,
    Except.toOption, decide_false, Bool.not_false, Bool.true_and, if_false, decide_true,
    if_true, and_self, ne_eq, not_false_eq_true]
  rw [List.length_append, Nat.sub_self]

/-! ## Whole files -/

def dashChars : List Char := ['-', '-', '-', '-', '-']

def beginChars : List Char := ['-', '-', '-', '-', '-', 'B', 'E', 'G', 'I', 'N', ' ']

def endChars : List Char := ['-', '-', '-', '-', '-', 'E', 'N', 'D', ' ']

theorem toList_begin : "-----BEGIN ".toList = beginChars := by decide

theorem toList_end : "-----END ".toList = endChars := by decide

def beginLine (name : String) : List Char :=
  beginChars ++ (name.toList ++ dashChars)

def endLine (name : String) : List Char :=
  endChars ++ (name.toList ++ dashChars)

/-- The lines of a document, of a given width. -/
def documentLines (width : Nat) (document : Bytes) : List Char :=
  (chunks width (Base64.text document)).flatMap (· ++ ['\n'])

/-- A document between its marker lines, without the line end behind it. -/
def file (width : Nat) (name : String) (document : Bytes) : List Char :=
  beginLine name ++ ('\n' :: (documentLines width document ++ endLine name))

theorem encode_eq_file (name : String) (document : Bytes) :
    encode name document = String.ofList (file lineWidth name document ++ ['\n']) := by
  have hDashes : "-----\n".toList = dashChars ++ ['\n'] := by decide
  rw [← String.toList_inj, String.toList_ofList]
  delta encode
  simp only [String.toList_append, String.toList_ofList, hDashes, toList_begin, toList_end]
  rw [file, beginLine, endLine, documentLines]
  simp only [List.append_assoc, List.cons_append, List.nil_append]

theorem wrap_eq_file {payload : Bytes} (h : payload ≠ []) :
    Armor.wrap payload =
      String.ofList (file Armor.lineWidth "OPENSSH PRIVATE KEY" payload ++ ['\n']) := by
  have hLines : Armor.bodyText payload = documentLines Armor.lineWidth payload := by
    rw [Armor.bodyText, Armor.bodyLines_eq_chunks h, documentLines]
  have hBegin : Armor.beginMarker.toList = beginLine "OPENSSH PRIVATE KEY" := by decide
  have hEnd : Armor.endMarker.toList = endLine "OPENSSH PRIVATE KEY" := by decide
  rw [Armor.wrap_eq, Armor.wrapList_eq, Armor.framed, List.nil_append, hLines, hBegin, hEnd, file]
  simp only [List.append_assoc, List.cons_append]

theorem isSolid_file (width : Nat) (name : String) (document : Bytes) :
    Text.isSolid (file width name document) = true := by
  have hDashes : dashChars = ['-', '-', '-', '-'] ++ ['-'] := rfl
  have hHead : (file width name document).head? = some '-' := rfl
  have hLast : (file width name document).getLast? = some '-' := by
    rw [file, endLine, hDashes, ← List.append_assoc name.toList, ← List.append_assoc endChars,
      ← List.append_assoc (documentLines _ _), ← List.cons_append, ← List.append_assoc,
      List.getLast?_concat]
  rw [Text.isSolid, hHead, hLast]
  decide

theorem trim_file (width : Nat) (name : String) (document : Bytes) :
    Text.trim (String.ofList (file width name document ++ ['\n'])) =
      String.ofList (file width name document) := by
  have hNil : Text.Blanks [] := fun _ h => nomatch h
  have hFeed : Text.Blanks ['\n'] := by
    intro c hc
    rw [List.mem_singleton.1 hc]
    decide
  have hTrim := Text.trimList_eq hNil hFeed (.inr (isSolid_file width name document))
  rw [List.nil_append] at hTrim
  rw [Text.trim, String.toList_ofList, hTrim]

/-- The byte of a character of ASCII. -/
def byteOf (c : Char) : UInt8 :=
  UInt8.ofNat c.toNat

theorem map_byteOf_documentLines (width : Nat) (document : Bytes) :
    (documentLines width document).map byteOf =
      (chunks width (Base64.encode document)).flatMap (· ++ [lineFeed]) := by
  have hText : (Base64.text document).map byteOf = Base64.encode document :=
    Base64.map_text document
  rw [← hText, chunks_map, documentLines, List.map_flatMap, List.flatMap_map]
  refine List.flatMap_congr fun l _ => ?_
  rw [List.map_append]
  rfl

theorem isAscii_documentLines (width : Nat) (hWidth : 0 < width) (document : Bytes) :
    isAscii (documentLines width document) = true := by
  refine isAscii_iff.2 fun c hc => ?_
  obtain ⟨l, hl, hc⟩ := List.mem_flatMap.1 hc
  rcases List.mem_append.1 hc with hc | hc
  · have hText : c ∈ Base64.text document := by
      rw [← flatten_chunks width hWidth (Base64.text document)]
      exact List.mem_flatten.2 ⟨l, hl, hc⟩
    exact isAscii_iff.1 (Base64.isAscii_text document) c hText
  · rw [List.mem_singleton.1 hc]
    decide

theorem isAscii_beginLine {name : String} (h : isAscii name.toList = true) :
    isAscii (beginLine name) = true :=
  isAscii_append (by decide) (isAscii_append h (by decide))

theorem isAscii_endLine {name : String} (h : isAscii name.toList = true) :
    isAscii (endLine name) = true :=
  isAscii_append (by decide) (isAscii_append h (by decide))

theorem isAscii_file (width : Nat) (hWidth : 0 < width) {name : String}
    (hName : isAscii name.toList = true) (document : Bytes) :
    isAscii (file width name document) = true := by
  have hFeed : isAscii ['\n'] = true := by decide
  rw [file, ← List.singleton_append]
  exact isAscii_append (isAscii_beginLine hName) (isAscii_append hFeed
    (isAscii_append (isAscii_documentLines width hWidth document) (isAscii_endLine hName)))

theorem beginStart_eq : beginStart = beginChars.map byteOf := by
  have hAscii : isAscii beginChars = true := by decide
  rw [beginStart, Bytes.ofString_ascii (by rw [toList_begin]; exact hAscii), toList_begin]
  rfl

theorem endStart_eq : endStart = endChars.map byteOf := by
  have hAscii : isAscii endChars = true := by decide
  rw [endStart, Bytes.ofString_ascii (by rw [toList_end]; exact hAscii), toList_end]
  rfl

/-- As bytes, the text is a block around the joined lines. -/
theorem exists_block {width : Nat} (hWidth : 0 < width) {name : String}
    (hName : isAscii name.toList = true) {document : Bytes} (hNe : document ≠ []) :
    ∃ body, Bytes.ofString (String.ofList (file width name document)) =
        block (Bytes.ofString name) body ∧ body ≠ [] ∧ body.getLast? ≠ some carriageReturn ∧
      lines? width body = some (chunks width (Base64.encode document)) := by
  have hSymbols : ∀ x ∈ Base64.encode document, x ≠ 10 ∧ x ≠ 13 := by
    have hAll : ∀ n < 64, Base64.symbol n ≠ 10 ∧ Base64.symbol n ≠ 13 := by decide
    intro x hx
    rcases Base64.isSymbol_of_mem_encode document x hx with rfl | ⟨n, hn, rfl⟩
    · decide
    · exact hAll n hn
  obtain ⟨body, hBody, hBodyNe, hLast, hLines⟩ :=
    exists_body hWidth (Base64.encode_ne_nil hNe) hSymbols
  refine ⟨body, ?_, hBodyNe, hLast, hLines⟩
  have hFile := isAscii_file width hWidth hName document
  have hLineBytes := map_byteOf_documentLines width document
  rw [hBody] at hLineBytes
  have hByte : (fun c : Char => UInt8.ofNat c.toNat) = byteOf := rfl
  have hFeedByte : byteOf '\n' = lineFeed := by decide
  have hDashBytes : dashes = dashChars.map byteOf := by
    rw [dashes_eq]
    decide
  rw [Bytes.ofString_ascii (by rw [String.toList_ofList]; exact hFile), String.toList_ofList,
    Bytes.ofString_ascii hName, block, beginStart_eq, endStart_eq, hDashBytes, hByte, file,
    beginLine, endLine]
  simp only [hFeedByte, List.map_append, List.map_cons, hLineBytes, List.append_assoc,
    List.singleton_append]

/-! ## Names of documents -/

theorem label_append {name : Bytes} {afterSpace : Bool}
    (h : label afterSpace (name ++ [45]) = (name, [45])) (rest : Bytes) :
    label afterSpace (name ++ 45 :: rest) = (name, 45 :: rest) := by
  induction name generalizing afterSpace with
  | nil => rfl
  | cons x name ih =>
    rw [List.cons_append, label] at h ⊢
    split at h
    · next hx =>
      have hTail : label false (name ++ [45]) = (name, [45]) :=
        Prod.ext (List.cons.inj (Prod.mk.inj h).1).2 (Prod.mk.inj h).2
      rw [if_pos hx, ih hTail]
    · next hx =>
      split at h
      · next hSpace =>
        have hTail : label true (name ++ [45]) = (name, [45]) :=
          Prod.ext (List.cons.inj (Prod.mk.inj h).1).2 (Prod.mk.inj h).2
        rw [if_neg hx, if_pos hSpace, ih hTail]
      · cases h

/-- Whether a name can be read back from a marker line. -/
def isName (name : String) : Bool :=
  isAscii name.toList &&
    label true (name.toList.map byteOf ++ [45]) = (name.toList.map byteOf, [45])

theorem isAscii_of_isName {name : String} (h : isName name = true) :
    isAscii name.toList = true := by
  rw [isName, Bool.and_eq_true] at h
  exact h.1

theorem isLabel_of_isName {name : String} (h : isName name = true) :
    IsLabel (Bytes.ofString name) := by
  intro rest
  rw [Bytes.ofString_ascii (isAscii_of_isName h), dashes_eq]
  rw [isName, Bool.and_eq_true] at h
  exact label_append (of_decide_eq_true h.2) ([45, 45, 45, 45] ++ rest)

/-! ## Reading a file -/

/-- **The strict reader finds the document of a file.** -/
theorem input?_file {width : Nat} (hWidth : 0 < width) {name : String} (hName : isName name = true)
    {document : Bytes} (hNe : document ≠ []) :
    input? width name (String.ofList (file width name document)) =
      some { source := .armor false, bytes := document } := by
  obtain ⟨body, hBlock, hBody, hLast, hLines⟩ :=
    exists_block hWidth (isAscii_of_isName hName) hNe
  have hChunks : (chunks width (Base64.encode document)).getLast? ≠ some [] := fun h =>
    ne_nil_of_mem_chunks hWidth (List.mem_of_getLast? h) rfl
  rw [input?, hBlock, encapsulated?_block (isLabel_of_isName hName) hLast]
  simp only [guard, hBody, Option.bind_eq_bind, Option.bind_some, hLines, ne_eq, not_false_eq_true,
    and_self, if_true, Option.pure_def]
  exact content?_lines hNe (flatten_chunks width hWidth _) hChunks

theorem decode?_file {name : String} (hName : isName name = true) {document : Bytes}
    (hNe : document ≠ []) :
    decode? name (String.ofList (file lineWidth name document)) = some document := by
  rw [decode?, input?_file (by decide) hName hNe]
  rfl

/-! ## Documents by their label -/

/-- The label of a block can be looked at before or after what is in it. -/
theorem decode?_eq (name text : String) : decode? name text =
    (labeled? text).bind fun p => if p.1 = Bytes.ofString name then some p.2 else none := by
  rw [decode?, labeled?, input?]
  cases encapsulated? (Bytes.ofString text) with
  | none => rfl
  | some p =>
    obtain ⟨found, body⟩ := p
    by_cases hName : found = Bytes.ofString name
    · simp [hName, guard, Option.bind_assoc]
    · simp [hName, guard, Option.bind_assoc]

/-- A document is read where it is decoded under its label and understood. -/
theorem document_eq_ok_iff {α : Type} {name text : String} {read? : Bytes → Option α} {a : α} :
    document name read? text = .ok a ↔ decode? name text >>= read? = some a := by
  rw [document, decode?_eq]
  cases labeled? text with
  | none => exact iff_of_false (fun h => nomatch h) fun h => nomatch h
  | some p =>
    obtain ⟨found, content⟩ := p
    by_cases hName : found = Bytes.ofString name
    · simp only [hName, ne_eq, not_true_eq_false, if_false, Option.bind_some, if_true]
      show _ ↔ read? content = some a
      cases read? content with
      | none => exact iff_of_false (fun h => nomatch h) fun h => nomatch h
      | some b => exact (Except.ok.injEq ..).to_iff.trans Option.some_inj.symm
    · simp only [hName, ne_eq, not_false_eq_true, if_true, Option.bind_some, if_false]
      exact iff_of_false (fun h => nomatch h) fun h => nomatch h

/-! ## Markers in a file -/

/-- Whether a pattern occurs in a marker line for a name. -/
def marks (name pattern : String) : Bool :=
  (Text.cut? pattern.toList (beginLine name)).isSome ||
    (Text.cut? pattern.toList (endLine name)).isSome

/-- A pattern with a character that base64 lacks can only occur in a marker line. -/
theorem contains_file {width : Nat} (hWidth : 0 < width) {name pattern : String}
    {document : Bytes} (hChar : pattern.toList.all Armor.isArmorChar = false)
    (hFeed : '\n' ∉ pattern.toList) :
    Text.contains (String.ofList (file width name document)) pattern = marks name pattern := by
  have hNe : pattern.toList ≠ [] := by
    intro hNil
    rw [hNil] at hChar
    cases hChar
  have hLine : ∀ l ∈ chunks width (Base64.text document), ¬pattern.toList <:+: l := by
    intro l hl hInfix
    obtain ⟨c, hc, hOther⟩ := List.all_eq_false.1 hChar
    refine Base64.not_mem_text (Bool.not_eq_true _ ▸ hOther) (b := document) ?_
    rw [← flatten_chunks width hWidth (Base64.text document)]
    exact List.mem_flatten.2 ⟨l, hl, hInfix.subset hc⟩
  -- With a line end behind the last marker line, all that is left is a sequence of lines.
  have hRest : pattern.toList <:+: documentLines width document ++ endLine name ↔
      pattern.toList <:+: endLine name := by
    constructor
    · intro h
      have hLines : documentLines width document ++ endLine name ++ ['\n'] =
          (chunks width (Base64.text document) ++ [endLine name]).flatMap (· ++ ['\n']) := by
        rw [List.flatMap_append, documentLines, List.flatMap_singleton, List.append_assoc]
      have hInfix := h.trans (List.prefix_append _ ['\n']).isInfix
      rw [hLines] at hInfix
      obtain ⟨l, hl, hIn⟩ := Text.infix_of_lines hNe hFeed hInfix
      rcases List.mem_append.1 hl with hl | hl
      · exact absurd hIn (hLine l hl)
      · rwa [List.mem_singleton.1 hl] at hIn
    · exact fun h => h.trans (List.suffix_append ..).isInfix
  rw [Bool.eq_iff_iff, Text.contains_iff, String.toList_ofList, file,
    Text.infix_append_cons_iff hFeed, hRest, marks, Bool.or_eq_true, Text.isSome_cut?_iff,
    Text.isSome_cut?_iff]

end SshKeys.Pem
