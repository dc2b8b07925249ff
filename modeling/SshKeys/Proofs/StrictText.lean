import SshKeys.Proofs.Pem

/-!
# Texts in strict form

A text in strict form is accounted for byte by byte: marker lines, symbols of
base64, and line ends.  So the lenient reader of containers, which looks for the
markers and drops what is foreign to base64, finds the same in it.

* `Pem.encapsulated?_eq_some`: what a text that begins with its marker line
  consists of.
* `Pem.filter_of_lines?`: a body is its lines and line ends.
* `Pem.flatten_of_content?`: **lines that are decoded to their end are the written
  form of what they give**.
* `Armor.unwrap_of_input?`: **the lenient reader reads what the strict reader does**.
-/

namespace SshKeys.Pem

open SshKeys.Bytes (isAscii isAscii_iff)

/-! ## Line ends -/

/-- Nothing but line feeds and carriage returns. -/
def IsEol (b : Bytes) : Prop :=
  ∀ x ∈ b, x = lineFeed ∨ x = carriageReturn

theorem isEol_nil : IsEol [] :=
  List.forall_mem_nil _

theorem isEol_cons {x : UInt8} {b : Bytes} (hx : x = lineFeed ∨ x = carriageReturn)
    (h : IsEol b) : IsEol (x :: b) :=
  List.forall_mem_cons.2 ⟨hx, h⟩

theorem isEol_feed : IsEol [10] :=
  isEol_cons (.inl rfl) isEol_nil

theorem isEol_return : IsEol [13] :=
  isEol_cons (.inr rfl) isEol_nil

theorem isEol_both : IsEol [13, 10] :=
  isEol_cons (.inr rfl) isEol_feed

theorem afterEol?_eq_some {b rest : Bytes} (h : afterEol? b = some rest) :
    ∃ e, IsEol e ∧ b = e ++ rest := by
  unfold afterEol? at h
  split at h
  · cases h
    exact ⟨[13, 10], isEol_both, rfl⟩
  · cases h
    exact ⟨[13], isEol_return, rfl⟩
  · cases h
    exact ⟨[10], isEol_feed, rfl⟩
  · cases h

theorem beforeEol?_eq_some {b front : Bytes} (h : beforeEol? b = some front) :
    ∃ e, IsEol e ∧ b = front ++ e := by
  rw [← List.reverse_reverse b]
  unfold beforeEol? at h
  split at h
  · next hEq =>
    cases h
    exact ⟨[13, 10], isEol_both, by rw [hEq]; simp⟩
  · next hEq =>
    cases h
    exact ⟨[10], isEol_feed, by rw [hEq]; simp⟩
  · next hEq =>
    cases h
    exact ⟨[13], isEol_return, by rw [hEq]; simp⟩
  · cases h

theorem exists_withoutEol (b : Bytes) : ∃ e, IsEol e ∧ b = withoutEol b ++ e := by
  rw [withoutEol]
  cases h : beforeEol? b with
  | none => exact ⟨[], isEol_nil, (List.append_nil b).symm⟩
  | some front => exact beforeEol?_eq_some h

/-- A filter that keeps no line end drops it. -/
theorem IsEol.filter {keep : UInt8 → Bool} (hFeed : keep lineFeed = false)
    (hReturn : keep carriageReturn = false) {e : Bytes} (h : IsEol e) : e.filter keep = [] := by
  refine List.filter_eq_nil_iff.2 fun x hx => ?_
  rcases h x hx with rfl | rfl
  · rw [hFeed]
    decide
  · rw [hReturn]
    decide

/-! ## Marker lines -/

theorem before?_eq_some {suffix b front : Bytes} (h : before? suffix b = some front) :
    b = front ++ suffix := by
  rw [before?] at h
  split at h
  · next hSuffix =>
    obtain ⟨c, rfl⟩ := List.isSuffixOf_iff_suffix.1 hSuffix
    rw [List.length_append, Nat.add_sub_cancel, List.take_left] at h
    cases h
    rfl
  · cases h

theorem append_label (afterSpace : Bool) (b : Bytes) :
    (label afterSpace b).1 ++ (label afterSpace b).2 = b := by
  induction b generalizing afterSpace with
  | nil => rfl
  | cons x b ih =>
    rw [label]
    split
    · exact congrArg (x :: ·) (ih false)
    · split
      · exact congrArg (x :: ·) (ih true)
      · rfl

/-- What a text that begins with its marker line consists of. -/
theorem encapsulated?_eq_some {text name body : Bytes} (hBegin : beginStart <+: text)
    (h : encapsulated? text = some (name, body)) :
    ∃ e₁ e₂ e₃, IsEol e₁ ∧ IsEol e₂ ∧ IsEol e₃ ∧
      text = beginStart ++ (name ++ (dashes ++ (e₁ ++ (body ++ (e₂ ++ (endStart ++
        (name ++ (dashes ++ e₃)))))))) := by
  obtain ⟨rest, rfl⟩ := hBegin
  rw [encapsulated?, if_pos (List.isPrefixOf_iff_prefix.2 (List.prefix_append ..))] at h
  simp only [Option.bind_eq_bind, Option.bind_some, List.drop_left, Option.bind_eq_some_iff,
    Option.guard_eq_some', Option.pure_def, Option.some_inj, Prod.mk.injEq] at h
  obtain ⟨_, hDashes, r₁, h₁, r₂, h₂, r₃, h₃, r₄, h₄, r₅, h₅, hName, rfl⟩ := h
  have hRest := append_label true rest
  obtain ⟨r₀, hr₀⟩ := List.isPrefixOf_iff_prefix.1 hDashes
  rw [← hr₀, List.drop_left] at h₁
  rw [← hr₀, hName] at hRest
  rw [hName] at h₃
  obtain ⟨e₁, hEol₁, hSplit₁⟩ := afterEol?_eq_some h₁
  obtain ⟨e₃, hEol₃, hSplit₃⟩ := exists_withoutEol r₁
  obtain ⟨e₂, hEol₂, hSplit₂⟩ := beforeEol?_eq_some h₅
  refine ⟨e₁, e₂, e₃, hEol₁, hEol₂, hEol₃, ?_⟩
  rw [← hRest, hSplit₁, hSplit₃, before?_eq_some h₂, before?_eq_some h₃, before?_eq_some h₄,
    hSplit₂]
  simp only [List.append_assoc]

/-! ## Lines -/

/-- A body is its lines and the line ends between them. -/
theorem filter_of_lines? {keep : UInt8 → Bool} (hFeed : keep lineFeed = false)
    (hReturn : keep carriageReturn = false) {width : Nat} {b : Bytes} {ls : List Bytes}
    (h : lines? width b = some ls) : b.filter keep = ls.flatten.filter keep := by
  fun_induction lines? width b generalizing ls with
  | case1 b hLong hNone => cases h
  | case2 b hLong rest hRest ih =>
    obtain ⟨ls', hLines, rfl⟩ := Option.map_eq_some_iff.1 h
    obtain ⟨e, hEol, hSplit⟩ := afterEol?_eq_some hRest
    rw [List.flatten_cons, List.filter_append, ← ih hLines]
    conv_lhs => rw [← List.take_append_drop width b, hSplit]
    rw [List.filter_append, List.filter_append, hEol.filter hFeed hReturn, List.nil_append]
  | case3 =>
    cases h
    rfl
  | case4 b hShort hNe =>
    cases h
    obtain ⟨e, hEol, hSplit⟩ := exists_withoutEol b
    conv_lhs => rw [hSplit]
    rw [List.filter_append, hEol.filter hFeed hReturn, List.append_nil, List.flatten_singleton]

/-! ## Base64 -/

/-- The groups that are read are written in the symbols they take. -/
theorem exists_groups (symbols : Bytes) :
    (∃ rest, symbols = Base64.encode (groups symbols) ++ rest) ∧
      (groups symbols).length % 3 = 0 := by
  have hNone (b : Bytes) : (∃ rest, b = Base64.encode [] ++ rest) ∧ ([] : Bytes).length % 3 = 0 :=
    ⟨⟨b, rfl⟩, rfl⟩
  fun_induction groups symbols with
  | case1 a b c d rest bytes hDecode hThree ih =>
    obtain ⟨⟨more, hMore⟩, hLength⟩ := ih
    have hGroup := Base64.decode_eq_ok_iff.1 hDecode
    refine ⟨⟨more, ?_⟩, by rw [List.length_append]; omega⟩
    rw [Base64.encode_append (by omega), ← hGroup, List.append_assoc, ← hMore]
    rfl
  | case2 => exact hNone _
  | case3 => exact hNone _
  | case4 => exact hNone _

/-- Groups that take as many symbols as there are take them all. -/
theorem eq_encode_groups {symbols : Bytes} (h : symbols.length / 4 * 3 ≤ (groups symbols).length)
    (hFour : symbols.length % 4 = 0) : symbols = Base64.encode (groups symbols) := by
  obtain ⟨⟨rest, hRest⟩, hThree⟩ := exists_groups symbols
  have hLength := congrArg List.length hRest
  rw [List.length_append, Base64.length_encode] at hLength
  have hNil : rest = [] := List.eq_nil_of_length_eq_zero (by omega)
  rwa [hNil, List.append_nil] at hRest

/-- **What is decoded to its end is the written form of what it gives.** -/
theorem flatten_of_content? {ls : List Bytes} {input : KeyInput} (h : content? ls = some input)
    (hEnd : input.unreadable = 0) :
    ls.flatten = Base64.encode input.bytes ∧ input.bytes ≠ [] := by
  rw [content?] at h
  simp only [Option.bind_eq_bind, Option.bind_eq_some_iff, Option.guard_eq_some', Option.pure_def,
    Option.some_inj] at h
  obtain ⟨_, ⟨hFour, hNe⟩, last, hLast, rfl⟩ := h
  generalize ls.flatten = symbols at hFour hNe hLast hEnd ⊢
  replace hEnd := Nat.sub_eq_zero_iff_le.1 hEnd
  have hPos : 0 < symbols.length := List.length_pos_iff.2 hNe
  have hDrop : symbols.drop (symbols.length - 4) = Base64.encode last := by
    refine Base64.decode_eq_ok_iff.1 ?_
    cases hDecode : Base64.decode (symbols.drop (symbols.length - 4)) with
    | error f =>
      rw [hDecode] at hLast
      cases hLast
    | ok b =>
      rw [hDecode] at hLast
      cases hLast
      rfl
  have hSplit : symbols.take (symbols.length - 4) ++ Base64.encode last = symbols := by
    rw [← hDrop, List.take_append_drop]
  have hLastLength := Base64.length_encode last
  rw [← hDrop, List.length_drop] at hLastLength
  have hFront : (symbols.take (symbols.length - 4)).length = symbols.length - 4 :=
    List.length_take_of_le (by omega)
  rw [hFront] at hEnd ⊢
  have hAll {b : Bytes} (hEq : symbols = Base64.encode b) : symbols = Base64.encode b ∧ b ≠ [] := by
    refine ⟨hEq, ?_⟩
    rintro rfl
    exact hNe hEq
  by_cases hBlank : ls.getLast? = some []
  · simp only [hBlank, decide_true, Bool.not_true, Bool.false_and, if_true, if_false,
      Bool.false_eq_true] at hEnd ⊢
    have hThree := (exists_groups symbols).2
    exact hAll (eq_encode_groups (by omega) hFour)
  · simp only [hBlank, decide_false, Bool.not_false, Bool.true_and, if_false,
      decide_eq_true_eq] at hEnd ⊢
    generalize symbols.take (symbols.length - 4) = front at hSplit hFront hEnd ⊢
    -- The last group is appended if all groups before it are read, and only then is all of it read.
    obtain ⟨⟨rest, hRest⟩, hThree⟩ := exists_groups front
    have hGroups := congrArg List.length hRest
    rw [List.length_append, Base64.length_encode] at hGroups
    have hFull : (groups front).length = (symbols.length - 4) / 4 * 3 := by
      split at hEnd <;> omega
    rw [if_pos hFull]
    have hFrontEq : front = Base64.encode (groups front) :=
      eq_encode_groups (by omega) (by omega)
    refine hAll ?_
    rw [Base64.encode_append hThree, ← hFrontEq, hSplit]

/-! ## Whole texts -/

theorem input?_eq_some {width : Nat} {name text : String} {input : KeyInput}
    (h : input? width name text = some input) :
    ∃ body ls, encapsulated? (Bytes.ofString text) = some (Bytes.ofString name, body) ∧
      lines? width body = some ls ∧ content? ls = some input := by
  simp only [input?, Option.bind_eq_bind, Option.bind_eq_some_iff, Option.guard_eq_some'] at h
  obtain ⟨⟨found, body⟩, hBlock, _, ⟨hFound, -⟩, ls, hLines, hContent⟩ := h
  subst hFound
  exact ⟨body, ls, hBlock, hLines, hContent⟩

theorem limits_of_input? {width : Nat} {name text : String} {input : KeyInput}
    (h : input? width name text = some input) : input.limits = [] := by
  obtain ⟨_, ls, -, -, hContent⟩ := input?_eq_some h
  rw [content?] at hContent
  simp only [Option.bind_eq_bind, Option.bind_eq_some_iff, Option.pure_def,
    Option.some_inj] at hContent
  obtain ⟨_, -, _, -, rfl⟩ := hContent
  rfl

/-- Between the marker lines there are the symbols of the document, and line ends. -/
theorem body_of_input? {width : Nat} {body : Bytes} {ls : List Bytes} {input : KeyInput}
    (hLines : lines? width body = some ls) (hFlatten : ls.flatten = Base64.encode input.bytes) :
    ∀ x ∈ body, (x = lineFeed ∨ x = carriageReturn) ∨ x ∈ Base64.encode input.bytes := by
  intro x hx
  by_cases hEol : x = lineFeed ∨ x = carriageReturn
  · exact .inl hEol
  · have hFilter : body.filter (fun x => !(x == lineFeed || x == carriageReturn)) = _ :=
      filter_of_lines? rfl rfl hLines
    have hMem : x ∈ body.filter fun x => !(x == lineFeed || x == carriageReturn) :=
      List.mem_filter.2 ⟨hx, by simpa using hEol⟩
    rw [hFilter, hFlatten] at hMem
    exact .inr (List.mem_filter.1 hMem).1

/-! ## Characters -/

/-- The character of a byte of ASCII. -/
def charOf (x : UInt8) : Char :=
  Char.ofNat x.toNat

theorem byteOf_charOf (x : UInt8) : byteOf (charOf x) = x := by
  rw [byteOf, charOf, Base64.toNat_charOfNat, UInt8.ofNat_toNat]

theorem charOf_byteOf {c : Char} (h : c.toNat < 128) : charOf (byteOf c) = c := by
  rw [charOf, byteOf, UInt8.toNat_ofNat', Nat.mod_eq_of_lt (by omega), Char.ofNat_toNat]

theorem map_charOf_byteOf {cs : List Char} (h : isAscii cs = true) :
    (cs.map byteOf).map charOf = cs := by
  rw [List.map_map]
  exact (List.map_congr_left fun c hc => charOf_byteOf (isAscii_iff.1 h c hc)).trans
    (List.map_id _)

theorem lt_of_mem_map_byteOf {cs : List Char} (h : isAscii cs = true) :
    ∀ x ∈ cs.map byteOf, x.toNat < 128 := by
  intro x hx
  obtain ⟨c, hc, rfl⟩ := List.mem_map.1 hx
  have hLt := isAscii_iff.1 h c hc
  rw [byteOf, UInt8.toNat_ofNat']
  omega

/-- A text whose bytes are all ASCII has a character for each of them. -/
theorem toList_of_ascii {text : String} {b : Bytes} (hText : Bytes.ofString text = b)
    (h : ∀ x ∈ b, x.toNat < 128) : text.toList = b.map charOf := by
  have hAscii : isAscii (String.ofList (b.map charOf)).toList = true := by
    rw [String.toList_ofList, isAscii_iff]
    intro c hc
    obtain ⟨x, hx, rfl⟩ := List.mem_map.1 hc
    rw [charOf, Base64.toNat_charOfNat]
    exact h x hx
  have hBytes : Bytes.ofString (String.ofList (b.map charOf)) = b := by
    rw [Bytes.ofString_ascii hAscii, String.toList_ofList, List.map_map]
    exact (List.map_congr_left fun x _ => byteOf_charOf x).trans (List.map_id _)
  have hSame := Bytes.toString?_ofString text
  rw [hText, ← hBytes, Bytes.toString?_ofString] at hSame
  rw [← Option.some.inj hSame, String.toList_ofList]

theorem dashes_eq_map : dashes = dashChars.map byteOf := by
  rw [dashes_eq]
  decide

theorem map_byteOf_beginLine {name : String} (hName : isAscii name.toList = true) :
    (beginLine name).map byteOf = beginStart ++ (Bytes.ofString name ++ dashes) := by
  rw [beginStart_eq, Bytes.ofString_ascii hName, dashes_eq_map, beginLine, List.map_append,
    List.map_append]
  rfl

theorem map_byteOf_endLine {name : String} (hName : isAscii name.toList = true) :
    (endLine name).map byteOf = endStart ++ (Bytes.ofString name ++ dashes) := by
  rw [endStart_eq, Bytes.ofString_ascii hName, dashes_eq_map, endLine, List.map_append,
    List.map_append]
  rfl

end SshKeys.Pem

namespace SshKeys.Armor

open SshKeys.Bytes (isAscii isAscii_iff)
open SshKeys.Pem (byteOf charOf beginLine endLine lineFeed carriageReturn)

theorem isArmorChar_of_mem_encode {b : Bytes} {x : UInt8} (h : x ∈ Base64.encode b) :
    isArmorChar (charOf x) = true :=
  Base64.isArmorChar_of_mem_text (List.mem_map_of_mem h)

theorem lt_of_mem_encode {b : Bytes} {x : UInt8} (h : x ∈ Base64.encode b) : x.toNat < 128 := by
  have hText := isAscii_iff.1 (Base64.isAscii_text b) (charOf x) (List.mem_map_of_mem h)
  rwa [charOf, Base64.toNat_charOfNat] at hText

/-- What may stand between the marker lines of a text in strict form. -/
def IsBody (payload body : Bytes) : Prop :=
  ∀ x ∈ body, (x = lineFeed ∨ x = carriageReturn) ∨ x ∈ Base64.encode payload

theorem IsBody.lt {payload body : Bytes} (h : IsBody payload body) : ∀ x ∈ body, x.toNat < 128 := by
  intro x hx
  rcases h x hx with (rfl | rfl) | hSymbol
  · decide
  · decide
  · exact lt_of_mem_encode hSymbol

theorem IsBody.not_mem {payload body : Bytes} (h : IsBody payload body) {c : Char}
    (hSymbol : isArmorChar c = false) (hFeed : c ≠ '\n') (hReturn : c ≠ '\r') :
    c ∉ body.map charOf := by
  intro hMem
  obtain ⟨x, hx, rfl⟩ := List.mem_map.1 hMem
  rcases h x hx with (rfl | rfl) | hOwn
  · exact hFeed rfl
  · exact hReturn rfl
  · rw [isArmorChar_of_mem_encode hOwn] at hSymbol
    cases hSymbol

theorem cleaned_map_charOf (b : Bytes) :
    cleaned (b.map charOf) = b.filter (isArmorChar ∘ charOf) := by
  rw [cleaned, List.filter_map, List.map_map]
  exact (List.map_congr_left fun x _ => Pem.byteOf_charOf x).trans (List.map_id _)

/-- What a text begins with, its bytes begin with. -/
theorem ofString_of_startsWith {text start : String} (h : Text.startsWith text start = true) :
    Bytes.ofString start <+: Bytes.ofString text := by
  obtain ⟨rest, hRest⟩ := List.isPrefixOf_iff_prefix.1 h
  rw [Bytes.ofString_eq_flatMap text, ← hRest, List.flatMap_append, ← Bytes.ofString_eq_flatMap]
  exact List.prefix_append ..

/-- Between the marker lines of a text that begins with the first of them, there are the symbols of
what is read from it, and line ends. -/
theorem exists_body_of_input? {width : Nat} {name text : String} {input : KeyInput}
    (hName : isAscii name.toList = true) (hBegin : Pem.beginStart <+: Bytes.ofString text)
    (h : Pem.input? width name text = some input) (hEnd : input.unreadable = 0) :
    input.bytes ≠ [] ∧ ∃ body more, IsBody input.bytes body ∧ IsBody input.bytes more ∧
      cleaned (body.map charOf) = Base64.encode input.bytes ∧
      text.toList = beginLine name ++ (body.map charOf ++ (endLine name ++ more.map charOf)) := by
  obtain ⟨found, ls, hBlock, hLines, hContent⟩ := Pem.input?_eq_some h
  obtain ⟨hFlatten, hNe⟩ := Pem.flatten_of_content? hContent hEnd
  obtain ⟨e₁, e₂, e₃, hEol₁, hEol₂, hEol₃, hText⟩ := Pem.encapsulated?_eq_some hBegin hBlock
  have hBody : IsBody input.bytes (e₁ ++ found ++ e₂) := by
    intro x hx
    rcases List.mem_append.1 hx with hx | hx
    · rcases List.mem_append.1 hx with hx | hx
      · exact .inl (hEol₁ x hx)
      · exact Pem.body_of_input? hLines hFlatten x hx
    · exact .inl (hEol₂ x hx)
  have hMore : IsBody input.bytes e₃ := fun x hx => .inl (hEol₃ x hx)
  have hCleaned : cleaned ((e₁ ++ found ++ e₂).map charOf) = Base64.encode input.bytes := by
    have hFeed : (isArmorChar ∘ charOf) lineFeed = false := by decide
    have hReturn : (isArmorChar ∘ charOf) carriageReturn = false := by decide
    rw [cleaned_map_charOf, List.filter_append, List.filter_append, hEol₁.filter hFeed hReturn,
      hEol₂.filter hFeed hReturn, Pem.filter_of_lines? hFeed hReturn hLines, hFlatten,
      List.nil_append, List.append_nil]
    exact List.filter_eq_self.2 fun x hx => isArmorChar_of_mem_encode hx
  have hBeginAscii := Pem.isAscii_beginLine hName
  have hEndAscii := Pem.isAscii_endLine hName
  have hSplit : Bytes.ofString text = (beginLine name).map byteOf ++
      ((e₁ ++ found ++ e₂) ++ ((endLine name).map byteOf ++ e₃)) := by
    rw [hText, Pem.map_byteOf_beginLine hName, Pem.map_byteOf_endLine hName]
    simp only [List.append_assoc]
  have hAscii : ∀ x ∈ Bytes.ofString text, x.toNat < 128 := by
    rw [hSplit]
    exact List.forall_mem_append.2 ⟨Pem.lt_of_mem_map_byteOf hBeginAscii,
      List.forall_mem_append.2 ⟨hBody.lt, List.forall_mem_append.2
        ⟨Pem.lt_of_mem_map_byteOf hEndAscii, hMore.lt⟩⟩⟩
  refine ⟨hNe, e₁ ++ found ++ e₂, e₃, hBody, hMore, hCleaned, ?_⟩
  rw [Pem.toList_of_ascii hSplit (hSplit ▸ hAscii)]
  simp only [List.map_append, Pem.map_charOf_byteOf hBeginAscii, Pem.map_charOf_byteOf hEndAscii]

/-- **Of a text that begins with the marker line of a container, the lenient reader reads what the
strict reader does**, if that is all of it. -/
theorem unwrap_of_input? {text : String} {input : KeyInput}
    (hMarker : Text.startsWith text beginMarker = true)
    (h : Pem.input? lineWidth "OPENSSH PRIVATE KEY" text = some input)
    (hEnd : input.unreadable = 0) : unwrap text = .ok input.bytes := by
  have hBeginLine : beginMarker.toList = beginLine "OPENSSH PRIVATE KEY" := by decide
  have hEndLine : endMarker.toList = endLine "OPENSSH PRIVATE KEY" := by decide
  have hBegin : Pem.beginStart <+: Bytes.ofString text := by
    have hStart : Text.startsWith beginMarker "-----BEGIN " = true := by decide
    exact (ofString_of_startsWith hStart).trans (ofString_of_startsWith hMarker)
  obtain ⟨hNe, body, more, hBody, -, hCleaned, hChars⟩ :=
    exists_body_of_input? (by decide) hBegin h hEnd
  rw [← hBeginLine, ← hEndLine] at hChars
  have hDash : '-' ∉ body.map charOf := hBody.not_mem (by decide) (by decide) (by decide)
  have hFramed : text.toList = framed [] (body.map charOf) (more.map charOf) := by
    rw [hChars, framed, List.nil_append]
  have hFound : body? text.toList = .ok (body.map charOf) := by
    rw [hFramed, body?_framed List.not_mem_nil hDash]
  rw [unwrap, unwrapList_of_body? hFound hCleaned hNe]

/-! ## Writing -/

/-- A payload in strict form, without a line end behind it. -/
def strictText (payload : Bytes) : String :=
  String.ofList (Pem.file lineWidth "OPENSSH PRIVATE KEY" payload)

theorem startsWith_strictText (payload : Bytes) :
    Text.startsWith (strictText payload) beginMarker = true := by
  have hMarker : beginMarker.toList = Pem.beginLine "OPENSSH PRIVATE KEY" := by decide
  rw [Text.startsWith, strictText, String.toList_ofList, hMarker, List.isPrefixOf_iff_prefix]
  exact List.prefix_append ..

theorem input?_strictText {payload : Bytes} (h : payload ≠ []) :
    Pem.input? lineWidth "OPENSSH PRIVATE KEY" (strictText payload) =
      some { source := .armor false, bytes := payload } :=
  Pem.input?_file (by decide) (by decide) h

end SshKeys.Armor
