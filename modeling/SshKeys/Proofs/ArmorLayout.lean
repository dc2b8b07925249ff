import SshKeys.Proofs.Armor

/-!
# What an armored text looks like

A payload is written in full lines of base64 between two marker lines.  `Inserted`
puts characters of a class anywhere into a text, and none of them hides a payload if
it is neither of base64 nor a dash.

* `areBodyLines_bodyLines`: all lines are full but the last one, which is empty only
  for the empty payload.
* `wrap_layout`: **these lines stand between the marker lines, and the payload is read
  from them whatever is put around the markers and in between**, dashes in front of
  either marker excepted.
-/

namespace SshKeys.Armor

variable {payload : Bytes}

/-! ## Lines -/

/-- The base64 of a payload in lines.  Only the last line may be shorter than the others, and only
the one line of the empty payload is empty. -/
structure AreBodyLines (payload : Bytes) (lines : List (List Char)) : Prop where
  flatten : lines.flatten = Base64.text payload
  symbols : ∀ l ∈ lines, ∀ c ∈ l, isArmorChar c = true
  full : ∀ l ∈ lines.dropLast, l.length = lineWidth
  last : payload ≠ [] → ∃ l, lines.getLast? = some l ∧ 1 ≤ l.length ∧ l.length ≤ lineWidth
  empty : payload = [] → lines = [[]]

theorem bodyLines_nil : bodyLines [] = [[]] := by
  have hText : Base64.text [] = [] := rfl
  rw [bodyLines, hText, chunks_nil]

theorem areBodyLines_bodyLines (payload : Bytes) : AreBodyLines payload (bodyLines payload) where
  flatten := flatten_bodyLines payload
  symbols _ hl _ hc := Base64.isArmorChar_of_mem_text (mem_text_of_mem_bodyLines hl hc)
  full l hl := by
    by_cases h : payload = []
    · rw [h, bodyLines_nil] at hl
      exact absurd hl List.not_mem_nil
    · rw [bodyLines_eq_chunks h] at hl
      exact length_of_mem_dropLast_chunks (by decide) hl
  last h := by
    rw [bodyLines_eq_chunks h]
    cases hLast : (chunks lineWidth (Base64.text payload)).getLast? with
    | none =>
      have hFlatten := flatten_chunks lineWidth (by decide) (Base64.text payload)
      rw [List.getLast?_eq_none_iff.1 hLast] at hFlatten
      exact absurd (List.map_eq_nil_iff.1 hFlatten.symm) (Base64.encode_ne_nil h)
    | some l =>
      have hMem := List.mem_of_getLast? hLast
      exact ⟨l, rfl, List.length_pos_iff.2 (ne_nil_of_mem_chunks (by decide) hMem),
        length_le_of_mem_chunks (by decide) hMem⟩
  empty h := by rw [h, bodyLines_nil]

/-! ## Characters put in -/

/-- `t` is `s` with characters that satisfy `p` put in, anywhere and as many as there may be. -/
inductive Inserted (p : Char → Prop) : List Char → List Char → Prop
  | nil : Inserted p [] []
  | keep {s t : List Char} (c : Char) : Inserted p s t → Inserted p (c :: s) (c :: t)
  | put {s t : List Char} {c : Char} : p c → Inserted p s t → Inserted p s (c :: t)

namespace Inserted

variable {p : Char → Prop} {s t : List Char}

/-- A filter that drops what was put in gives the same for both texts. -/
theorem filter_eq {keep : Char → Bool} (hDrop : ∀ c, p c → keep c = false) (h : Inserted p s t) :
    t.filter keep = s.filter keep := by
  induction h with
  | nil => rfl
  | keep c _ ih => rw [List.filter_cons, List.filter_cons, ih]
  | put hc _ ih => rw [List.filter_cons_of_neg (by rw [hDrop _ hc]; decide), ih]

theorem mem_or {c : Char} (h : Inserted p s t) (hc : c ∈ t) : c ∈ s ∨ p c := by
  induction h with
  | nil => exact .inl hc
  | keep d _ ih =>
    rcases List.mem_cons.1 hc with rfl | hc
    · exact .inl List.mem_cons_self
    · exact (ih hc).imp_left (List.mem_cons_of_mem d)
  | put hd _ ih =>
    rcases List.mem_cons.1 hc with rfl | hc
    · exact .inr hd
    · exact ih hc

end Inserted

/-- Neither a character of base64 nor one that a marker could begin with. -/
def IsForeign (c : Char) : Prop :=
  isArmorChar c = false ∧ c ≠ '-'

/-! ## The whole text -/

theorem inner_of_framed {before inner inner' after : List Char}
    (h : framed before inner after = framed before inner' after) : inner = inner' := by
  have hBehind := List.append_cancel_left (List.append_cancel_left h)
  exact List.append_cancel_right hBehind

/-- Foreign characters between the markers, text without dashes in front and any text behind do not
keep a payload from being read. -/
theorem unwrap_of_inserted {before inner after : List Char} (h : payload ≠ [])
    (hBefore : '-' ∉ before) (hInserted : Inserted IsForeign ('\n' :: bodyText payload) inner) :
    unwrap (String.ofList (framed before inner after)) = .ok payload := by
  have hInner : '-' ∉ inner := by
    intro hDash
    rcases hInserted.mem_or hDash with hOwn | hForeign
    · exact dash_not_mem_bodyText payload hOwn
    · exact hForeign.2 rfl
  have hSymbols : cleaned inner = Base64.encode payload := by
    rw [cleaned, hInserted.filter_eq fun _ hc => hc.1]
    exact cleaned_bodyText payload
  exact unwrap_framed hBefore hInner hSymbols h

/-- **A payload is armored in full lines and read back from them**, also with characters put in
between the markers that are neither of base64 nor dashes, with any text without dashes in front and
with any text behind. -/
theorem wrap_layout (payload : Bytes) :
    ∃ (lines : List (List Char)) (written : List Char), AreBodyLines payload lines ∧
      (wrap payload).toList =
        (beginMarker.toList :: lines ++ [endMarker.toList]).flatMap (· ++ ['\n']) ∧
      (wrap payload).toList = framed [] written ['\n'] ∧
      (payload ≠ [] → ∀ before inner after : List Char, '-' ∉ before →
        Inserted IsForeign written inner →
        unwrap (String.ofList (framed before inner ('\n' :: after))) = .ok payload) := by
  refine ⟨bodyLines payload, '\n' :: bodyText payload, areBodyLines_bodyLines payload, ?_, ?_,
    fun h _ _ _ => unwrap_of_inserted h⟩
  · rw [toList_wrap, wrapList]
  · rw [toList_wrap, wrapList_eq]

/-- Three bytes, with a header in front, a blank and a letter of another alphabet among the symbols,
and further markers behind. -/
theorem wrap_layout_three :
    ([1, 2, 3] : Bytes) ≠ [] ∧ (wrap [1, 2, 3]).toList = framed [] "\nAQID\n".toList ['\n'] ∧
      '-' ∉ "Key:\n".toList ∧ Inserted IsForeign "\nAQID\n".toList "\r\n AQ\u00e9ID\n".toList ∧
      unwrap (String.ofList (framed "Key:\n".toList "\r\n AQ\u00e9ID\n".toList
        ('\n' :: framed [] [] []))) = .ok [1, 2, 3] := by
  have hNe : ([1, 2, 3] : Bytes) ≠ [] := by decide
  have hLines : bodyLines [1, 2, 3] = ["AQID".toList] := by
    rw [bodyLines_eq_chunks hNe, chunks_eq_map_range (by decide)]
    decide
  have hWrap : (wrap [1, 2, 3]).toList = framed [] "\nAQID\n".toList ['\n'] := by
    rw [toList_wrap, wrapList_eq, bodyText, hLines]
    rfl
  have hInserted : Inserted IsForeign "\nAQID\n".toList "\r\n AQ\u00e9ID\n".toList :=
    .put ⟨by decide, by decide⟩ <| .keep '\n' <| .put ⟨by decide, by decide⟩ <| .keep 'A' <|
      .keep 'Q' <| .put ⟨by decide, by decide⟩ <| .keep 'I' <| .keep 'D' <| .keep '\n' .nil
  have hBefore : '-' ∉ "Key:\n".toList := by decide
  obtain ⟨_, written, -, -, hWritten, hRead⟩ := wrap_layout [1, 2, 3]
  have hSame : written = "\nAQID\n".toList := inner_of_framed (hWritten.symm.trans hWrap)
  exact ⟨hNe, hWrap, hBefore, hInserted, hRead hNe _ _ _ hBefore (hSame ▸ hInserted)⟩

end SshKeys.Armor
