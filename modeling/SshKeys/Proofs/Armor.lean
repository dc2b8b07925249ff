import SshKeys.Container.Armor
import SshKeys.Proofs.Base64
import SshKeys.Proofs.Buffer
import SshKeys.Proofs.Text

/-!
# The armor read back

`unwrap_wrap`: **a payload is read back from its armored text**.
`unwrap_framed`: it is also read where other characters stand around the markers and
between them, if the body has the same symbols.
`unwrap_trim`: blanks around a text do not change what is read from it.
-/

namespace SshKeys

namespace Base64

theorem toNat_charOfNat (x : UInt8) : (Char.ofNat x.toNat).toNat = x.toNat := by
  have hx : x.toNat < 256 := x.toNat_lt
  rw [Char.ofNat, dif_pos (.inl (by omega))]
  rfl

theorem map_text (b : Bytes) : (text b).map (fun c => UInt8.ofNat c.toNat) = encode b := by
  rw [text, List.map_map]
  refine (List.map_congr_left fun x _ => ?_).trans (List.map_id _)
  rw [Function.comp_apply, toNat_charOfNat, UInt8.ofNat_toNat]
  rfl

/-- What holds of the padding and of every symbol holds of every character of a written form. -/
theorem forall_mem_text (p : Char → Prop) (b : Bytes) (hPadding : p '=')
    (hSymbol : ∀ n < 64, p (Char.ofNat (symbol n).toNat)) : ∀ c ∈ text b, p c := by
  intro c hc
  obtain ⟨x, hx, rfl⟩ := List.mem_map.1 hc
  rcases isSymbol_of_mem_encode b x hx with rfl | ⟨n, hn, rfl⟩
  · exact hPadding
  · exact hSymbol n hn

theorem isArmorChar_of_mem_text {b : Bytes} {c : Char} (h : c ∈ text b) :
    Armor.isArmorChar c = true :=
  forall_mem_text (Armor.isArmorChar · = true) b (by decide) (by decide) c h

theorem isAscii_text (b : Bytes) : Bytes.isAscii (text b) = true :=
  Bytes.isAscii_iff.2 (forall_mem_text (·.toNat < 128) b (by decide) (by decide))

theorem not_mem_text {b : Bytes} {c : Char} (h : Armor.isArmorChar c = false) : c ∉ text b := by
  intro hc
  rw [isArmorChar_of_mem_text hc] at h
  cases h

end Base64

namespace Armor

/-! ## The body -/

/-- The lines between the markers, each with its line end. -/
def bodyText (payload : Bytes) : List Char :=
  (bodyLines payload).flatMap (· ++ ['\n'])

theorem flatten_bodyLines (payload : Bytes) :
    (bodyLines payload).flatten = Base64.text payload := by
  have hFlatten := flatten_chunks lineWidth (by decide) (Base64.text payload)
  rw [bodyLines]
  split
  · next h =>
    rw [h] at hFlatten
    exact hFlatten
  · exact hFlatten

/-- There is an empty line only where there is nothing to write. -/
theorem bodyLines_eq_chunks {payload : Bytes} (h : payload ≠ []) :
    bodyLines payload = chunks lineWidth (Base64.text payload) := by
  rw [bodyLines]
  split
  · next hNil =>
    have hFlatten := flatten_chunks lineWidth (by decide) (Base64.text payload)
    rw [hNil] at hFlatten
    exact absurd (List.map_eq_nil_iff.1 hFlatten.symm) (Base64.encode_ne_nil h)
  · rfl

theorem mem_text_of_mem_bodyLines {payload : Bytes} {l : List Char} {c : Char}
    (hl : l ∈ bodyLines payload) (hc : c ∈ l) : c ∈ Base64.text payload := by
  rw [← flatten_bodyLines]
  exact List.mem_flatten.2 ⟨l, hl, hc⟩

theorem filter_bodyText (payload : Bytes) :
    (bodyText payload).filter isArmorChar = Base64.text payload := by
  have hLines : ∀ ls : List (List Char), (∀ l ∈ ls, ∀ c ∈ l, isArmorChar c = true) →
      (ls.flatMap (· ++ ['\n'])).filter isArmorChar = ls.flatten := by
    intro ls h
    induction ls with
    | nil => rfl
    | cons l ls ih =>
      have hFeed : ['\n'].filter isArmorChar = [] := by decide
      rw [List.flatMap_cons, List.filter_append, List.filter_append, hFeed, List.append_nil,
        ih fun l' hl' => h l' (List.mem_cons_of_mem l hl'), List.flatten_cons,
        List.filter_eq_self.2 (h l List.mem_cons_self)]
  rw [bodyText, hLines _ fun l hl c hc => Base64.isArmorChar_of_mem_text
    (mem_text_of_mem_bodyLines hl hc), flatten_bodyLines]

theorem cleaned_bodyText (payload : Bytes) :
    cleaned ('\n' :: bodyText payload) = Base64.encode payload := by
  have hFeed : isArmorChar '\n' = false := by decide
  rw [cleaned, List.filter_cons_of_neg (by rw [hFeed]; decide), filter_bodyText, Base64.map_text]

theorem dash_not_mem_bodyText (payload : Bytes) : '-' ∉ '\n' :: bodyText payload := by
  intro h
  rcases List.mem_cons.1 h with h | h
  · cases h
  · obtain ⟨l, hl, h⟩ := List.mem_flatMap.1 h
    rcases List.mem_append.1 h with h | h
    · exact Base64.not_mem_text (by decide) (mem_text_of_mem_bodyLines hl h)
    · simp at h

/-! ## The whole text -/

/-- `inner` between the two markers, with `before` and `after` around them. -/
def framed (before inner after : List Char) : List Char :=
  before ++ (beginMarker.toList ++ (inner ++ (endMarker.toList ++ after)))

/-- The characters of the armored text of a payload. -/
def wrapList (payload : Bytes) : List Char :=
  (beginMarker.toList :: bodyLines payload ++ [endMarker.toList]).flatMap (· ++ ['\n'])

theorem flatten_lines (payload : Bytes) : (lines payload).flatten = wrapList payload := by
  rw [lines, wrapList, List.flatMap_def]

/-- The room of the buffer does not show in the text. -/
theorem toList_wrap (payload : Bytes) : (wrap payload).toList = wrapList payload := by
  rw [wrap, String.toList_ofList, write, Buffer.written_writeAll, flatten_lines]

theorem wrap_eq (payload : Bytes) : wrap payload = String.ofList (wrapList payload) := by
  rw [← toList_wrap, String.ofList_toList]

theorem wrapList_eq (payload : Bytes) :
    wrapList payload = framed [] ('\n' :: bodyText payload) ['\n'] := by
  simp only [wrapList, bodyText, framed, List.flatMap_cons, List.flatMap_append, List.cons_append,
    List.flatMap_nil, List.nil_append, List.append_nil, List.append_assoc]

/-- The markers are found where they stand if there is no dash in front of either of them. -/
theorem body?_framed {before inner : List Char} (hBefore : '-' ∉ before) (hInner : '-' ∉ inner)
    (after : List Char) : body? (framed before inner after) = .ok inner := by
  have hBegin : Text.cut? beginMarker.toList (framed before inner after) =
      some (before, inner ++ (endMarker.toList ++ after)) := Text.cut?_append_self hBefore
  have hEnd : Text.cut? endMarker.toList (inner ++ (endMarker.toList ++ after)) =
      some (inner, after) := Text.cut?_append_self hInner
  rw [body?, hBegin]
  simp only [hEnd]

theorem body?_wrapList (payload : Bytes) :
    body? (wrapList payload) = .ok ('\n' :: bodyText payload) := by
  rw [wrapList_eq, body?_framed List.not_mem_nil (dash_not_mem_bodyText payload)]

/-- A body whose symbols are the written form of a payload is read as that payload. -/
theorem unwrapList_of_body? {text body : List Char} {payload : Bytes}
    (hBody : body? text = .ok body) (hSymbols : cleaned body = Base64.encode payload)
    (h : payload ≠ []) : unwrapList text = .ok payload := by
  rw [unwrapList, hBody]
  simp only [bind, Except.bind, hSymbols, if_neg (Base64.encode_ne_nil h), Base64.decode_encode]
  rfl

theorem unwrapList_wrapList {payload : Bytes} (h : payload ≠ []) :
    unwrapList (wrapList payload) = .ok payload :=
  unwrapList_of_body? (body?_wrapList payload) (cleaned_bodyText payload) h

/-- **A payload is read back from its armored text.** -/
theorem unwrap_wrap {payload : Bytes} (h : payload ≠ []) : unwrap (wrap payload) = .ok payload := by
  rw [unwrap, toList_wrap, unwrapList_wrapList h]

/-- So it is when other characters stand around and in it, if the body has the same symbols. -/
theorem unwrap_framed {before inner after : List Char} {payload : Bytes} (hBefore : '-' ∉ before)
    (hInner : '-' ∉ inner) (hSymbols : cleaned inner = Base64.encode payload) (h : payload ≠ []) :
    unwrap (String.ofList (framed before inner after)) = .ok payload := by
  rw [unwrap, String.toList_ofList,
    unwrapList_of_body? (body?_framed hBefore hInner after) hSymbols h]

/-! ## Faults -/

theorem exists_fault_of_unwrap_error {text : String} {f : Failure} (h : unwrap text = .error f) :
    ∃ fault, f = .malformedContainer fault := by
  rw [unwrap] at h
  split at h
  · cases h
  · next fault _ =>
    cases h
    exact ⟨fault, rfl⟩

theorem kind_of_unwrap_error {text : String} {f : Failure} (h : unwrap text = .error f) :
    f.kind = .malformedContainer := by
  obtain ⟨fault, rfl⟩ := exists_fault_of_unwrap_error h
  rfl

/-! ## Blanks around the text -/

theorem body?_trimList (text : List Char) : body? (Text.trimList text) = body? text := by
  have hBegin : Text.isSolid beginMarker.toList = true := by decide
  have hEnd : Text.isSolid endMarker.toList = true := by decide
  obtain ⟨x, y, hx, hy, hSplit, -⟩ := Text.exists_trimList text
  conv_rhs => rw [hSplit]
  rw [body?, body?, Text.cut?_blanks_append hBegin hx, Text.cut?_append_blanks hBegin hy]
  cases Text.cut? beginMarker.toList (Text.trimList text) with
  | none => rfl
  | some p =>
    obtain ⟨before, rest⟩ := p
    simp only [Option.map_some, Text.cut?_append_blanks hEnd hy]
    cases Text.cut? endMarker.toList rest with
    | none => rfl
    | some q => rfl

theorem unwrap_trim (text : String) : unwrap (Text.trim text) = unwrap text := by
  rw [unwrap, unwrap, Text.toList_trim, unwrapList, unwrapList, body?_trimList]

end Armor

end SshKeys
