import SshKeys.Detection
import SshKeys.Key.Line
import SshKeys.Proofs.Armor
import SshKeys.Proofs.KeyMaterial
import SshKeys.Proofs.Steps

/-!
# Public key lines read back

The line of a key begins with two words, the name of its algorithm and its binary
form, and the comment follows as it is, without the blanks around it.

* `PublicKey.ofLine_line`: **the line of a key reads as that key**, and of the
  comment the words are kept.
* `PublicKey.mem_line_iff`: a blank other than the space is in a line only if it is
  in the comment.
* `PublicKey.kind_line_iff`: which lines are taken for public keys.
* `PublicKey.line_inverse`: **printing and reading are inverse**.  A line that was read
  and printed is in a form that `PublicKey.reprint` does not change.
-/

namespace SshKeys

open Text (isBlank IsWord isSolid words)

/-! ## The two words -/

namespace Base64

theorem isWord_text {b : Bytes} (h : b ≠ []) : IsWord (String.ofList (text b)) := by
  refine ⟨fun hEmpty => encode_ne_nil h ?_, ?_⟩
  · rw [← map_text, ← String.toList_ofList (l := text b), hEmpty]
    rfl
  · rw [String.toList_ofList]
    exact forall_mem_text (isBlank · = false) b (by decide) (by decide)

theorem decode_text (b : Bytes) : decode (Bytes.ofString (String.ofList (text b))) = .ok b := by
  have hAscii : Bytes.isAscii (String.ofList (text b)).toList = true := by
    rw [String.toList_ofList]
    exact isAscii_text b
  rw [Bytes.ofString_ascii hAscii, String.toList_ofList, map_text, decode_encode]

end Base64

namespace PublicKey

variable {k : PublicKey} {t : KeyType} {comment : String}

/-- The families that reports describe, by the names of their algorithms. -/
theorem algorithm_mem (h : k.keyType = .ok t) :
    k.algorithm ∈ [Algorithm.rsa, .dsa, .ed25519, .ecdsa .p256, .ecdsa .p384, .ecdsa .p521] := by
  cases k with
  | rsa e n => simp [algorithm]
  | dsa p q g y => simp [algorithm]
  | ecdsa curve point => cases curve <;> simp [algorithm]
  | ed25519 key => simp [algorithm]
  | skEcdsa point application => cases h
  | skEd25519 key application => cases h
  | other name body => cases h

theorem isWord_name (h : k.keyType = .ok t) : IsWord k.algorithm.name := by
  have hNames : ∀ a ∈ [Algorithm.rsa, .dsa, .ed25519, .ecdsa .p256, .ecdsa .p384, .ecdsa .p521],
      a.name ≠ "" ∧ a.name.toList.all (!isBlank ·) = true := by
    decide
  obtain ⟨hNe, hBlank⟩ := hNames _ (algorithm_mem h)
  exact ⟨hNe, fun c hc => by simpa using List.all_eq_true.1 hBlank c hc⟩

theorem blob_ne_nil (k : PublicKey) : k.blob ≠ [] := by
  intro hNil
  have hLength := congrArg List.length hNil
  rw [blob, List.length_append, Field.length_putText, Field.stringLength, List.length_nil] at hLength
  omega

/-- The two words a line begins with. -/
def lineHead (k : PublicKey) : String :=
  k.algorithm.name ++ " " ++ String.ofList (Base64.text k.blob)

theorem line_of_empty (h : Text.trim comment = "") : k.line comment = k.lineHead := by
  rw [line, h]
  rfl

theorem line_of_ne (h : Text.trim comment ≠ "") :
    k.line comment = k.lineHead ++ " " ++ Text.trim comment := by
  rw [line]
  exact if_neg (by rwa [String.isEmpty_iff])

theorem isSolid_lineHead (h : k.keyType = .ok t) : isSolid k.lineHead.toList = true := by
  rw [lineHead, String.toList_append, String.toList_append, List.append_assoc]
  exact Text.isSolid_append (isWord_name h).isSolid (Base64.isWord_text k.blob_ne_nil).isSolid

/-- A line has no blanks around it. -/
theorem trim_line (h : k.keyType = .ok t) (comment : String) :
    Text.trim (k.line comment) = k.line comment := by
  refine Text.trim_of_isSolid ?_
  rcases Text.isSolid_trim comment with hEmpty | hSolid
  · rw [line_of_empty hEmpty]
    exact isSolid_lineHead h
  · have hNe : Text.trim comment ≠ "" := by
      intro hEmpty
      rw [hEmpty] at hSolid
      cases hSolid
    rw [line_of_ne hNe, String.toList_append, String.toList_append, List.append_assoc]
    exact Text.isSolid_append (isSolid_lineHead h) hSolid

/-- **A blank other than the space comes from the comment.** -/
theorem mem_line_iff (h : k.keyType = .ok t) {c : Char} (hBlank : isBlank c = true) (hc : c ≠ ' ') :
    c ∈ (k.line comment).toList ↔ c ∈ (Text.trim comment).toList := by
  have hWord {w : String} (hw : IsWord w) : c ∉ w.toList := by
    intro hMem
    rw [hw.2 c hMem] at hBlank
    cases hBlank
  have hSpace : c ∉ " ".toList := fun hMem => hc (List.mem_singleton.1 hMem)
  have hHead : c ∉ k.lineHead.toList := by
    rw [lineHead, String.toList_append, String.toList_append, List.mem_append, List.mem_append,
      not_or, not_or]
    exact ⟨⟨hWord (isWord_name h), hSpace⟩, hWord (Base64.isWord_text k.blob_ne_nil)⟩
  by_cases hEmpty : Text.trim comment = ""
  · rw [line_of_empty hEmpty, hEmpty]
    exact iff_of_false hHead List.not_mem_nil
  · rw [line_of_ne hEmpty, String.toList_append, String.toList_append, List.mem_append,
      List.mem_append, or_iff_right (not_or.2 ⟨hHead, hSpace⟩)]

/-! ## Reading -/

/-- Words with spaces between them, as the comment of a line. -/
def joined (ws : List String) : Option String :=
  let s := String.intercalate " " ws
  if s.isEmpty then none else some s

/-- **When a text is read as a line.** -/
theorem ofLine_eq_ok_iff {s : String} {own : Option String} :
    ofLine s = .ok (k, own) ↔ ∃ token body rest blob t, words s = token :: body :: rest ∧
      Algorithm.ofName? token = some k.algorithm ∧
      Base64.decode (Bytes.ofString body) = .ok blob ∧ ofBlob blob = .ok k ∧
      k.keyType = .ok t ∧ own = joined rest := by
  constructor
  · intro h
    rw [ofLine.eq_def] at h
    split at h
    · next token body rest hWords =>
      split at h
      · cases h
      · next algorithm hName =>
        split at h
        · cases h
        · next blob hBlob =>
          split at h
          · cases h
          · next key hKey =>
            split at h
            · cases h
            · next hSame =>
              obtain ⟨t, hType, hPure⟩ := Result.bind_eq_ok_iff.1 h
              cases hPure
              rw [← not_not.1 hSame] at hName
              exact ⟨token, body, rest, blob, t, hWords, hName, hBlob, hKey, hType, rfl⟩
    · cases h
  · rintro ⟨token, body, rest, blob, t, hWords, hName, hBlob, hKey, hType, rfl⟩
    rw [ofLine, hWords]
    simp only [hName, hBlob, hKey, ne_eq, not_true_eq_false, if_false, hType]
    rfl

theorem words_line (h : k.keyType = .ok t) (comment : String) :
    words (k.line comment) =
      k.algorithm.name :: String.ofList (Base64.text k.blob) :: words (Text.trim comment) := by
  have hBody := Base64.isWord_text k.blob_ne_nil
  by_cases hEmpty : Text.trim comment = ""
  · rw [line_of_empty hEmpty, lineHead, Text.words_append (isWord_name h), Text.words_word hBody,
      hEmpty]
    rfl
  · rw [line_of_ne hEmpty, lineHead, String.append_assoc, String.append_assoc,
      Text.words_append (isWord_name h), ← String.append_assoc, Text.words_append hBody]

/-- **The line of a key is read back.** -/
theorem ofLine_line (hValid : k.Valid) (h : k.keyType = .ok t) (comment : String) :
    ofLine (k.line comment) = .ok (k, joined (words (Text.trim comment))) :=
  ofLine_eq_ok_iff.2 ⟨_, _, _, _, t, words_line h comment, hValid.isNamed.1, Base64.decode_text _,
    ofBlob_blob hValid, h, rfl⟩

theorem isWord_of_mem_rest {s token body : String} {rest : List String}
    (h : words s = token :: body :: rest) : ∀ w ∈ rest, IsWord w := by
  intro w hw
  refine Text.isWord_of_mem_words (s := s) ?_
  rw [h]
  exact List.mem_cons_of_mem _ (List.mem_cons_of_mem _ hw)

/-! ## Classification -/

theorem startsWith_append {s p : String} (h : Text.startsWith s p = true) (rest : String) :
    Text.startsWith (s ++ rest) p = true := by
  rw [Text.startsWith, List.isPrefixOf_iff_prefix] at h ⊢
  rw [String.toList_append]
  exact h.trans (List.prefix_append ..)

/-- The name in front makes a line look public. -/
theorem looksPublic_line (h : k.keyType = .ok t) (comment : String) :
    ["ssh-", "ecdsa-", "sk-"].any (Text.startsWith (k.line comment)) = true := by
  have hNames : ∀ a ∈ [Algorithm.rsa, .dsa, .ed25519, .ecdsa .p256, .ecdsa .p384, .ecdsa .p521],
      ["ssh-", "ecdsa-", "sk-"].any (Text.startsWith a.name) = true := by
    decide
  obtain ⟨p, hp, hName⟩ := List.any_eq_true.1 (hNames _ (algorithm_mem h))
  refine List.any_eq_true.2 ⟨p, hp, ?_⟩
  by_cases hEmpty : Text.trim comment = ""
  · rw [line_of_empty hEmpty, lineHead, String.append_assoc]
    exact startsWith_append hName _
  · rw [line_of_ne hEmpty, lineHead, String.append_assoc, String.append_assoc, String.append_assoc]
    exact startsWith_append hName _

/-- **A line is taken for a public key unless there is a marker of a private key in it.** -/
theorem kind_line_iff (h : k.keyType = .ok t) : TextKind.ofText (k.line comment) = .publicKey ↔
    Text.contains (k.line comment) "PRIVATE KEY-----" = false ∧
      Text.contains (k.line comment) containerMarker = false := by
  rw [TextKind.ofText, trim_line h, looksPublic_line h, Bool.not_true, Bool.or_false]
  simp only [← Bool.or_eq_false_iff]
  split
  · next hPrivate =>
    rw [hPrivate]
    exact iff_of_false TextKind.noConfusion Bool.noConfusion
  · next hPublic =>
    exact iff_of_true rfl (Bool.eq_false_iff.2 hPublic)

/-! ## Printing and reading -/

theorem joined_eq {ws : List String} (h : ∀ w ∈ ws, IsWord w) :
    joined ws = if ws = [] then none else some (String.intercalate " " ws) := by
  by_cases hNil : ws = []
  · rw [if_pos hNil, hNil]
    rfl
  · have hNe : String.intercalate " " ws ≠ "" := by
      intro hEmpty
      have hWords := Text.words_joined h
      rw [hEmpty] at hWords
      exact hNil hWords.symm
    rw [if_neg hNil]
    exact if_neg (by rwa [String.isEmpty_iff])

/-- The words of a comment are found in it again, also when there are none. -/
theorem words_getD_joined {ws : List String} (h : ∀ w ∈ ws, IsWord w) :
    words ((joined ws).getD "") = ws := by
  rw [joined_eq h]
  split
  · next hNil =>
    rw [hNil]
    rfl
  · rw [Option.getD_some, Text.words_joined h]

/-- The line of what a line was read as. -/
def reprint (s : String) : Except Failure String := do
  let (k, own) ← ofLine s
  pure (k.line (own.getD ""))

theorem reprint_of_ofLine {s : String} {own : Option String} (h : ofLine s = .ok (k, own)) :
    reprint s = .ok (k.line (own.getD "")) := by
  rw [reprint, h]
  rfl

/-- A line that was read and printed is read as the same key and comment. -/
theorem ofLine_line_getD {s : String} {own : Option String} (h : ofLine s = .ok (k, own)) :
    ofLine (k.line (own.getD "")) = .ok (k, own) := by
  obtain ⟨token, body, rest, blob, t, hWords, -, -, hKey, hType, rfl⟩ := ofLine_eq_ok_iff.1 h
  rw [ofLine_line (valid_of_ofBlob hKey) hType, Text.words_trim,
    words_getD_joined (isWord_of_mem_rest hWords)]

/-- **Printing and reading are inverse.**  Of a comment the words are kept.  A line may differ from
the printed one in its blanks, in bytes behind the key or in an alias of the name among the bytes;
once printed, it is in a form that printing does not change. -/
theorem line_inverse :
    (∀ b k t comment, ofBlob b = .ok k → k.keyType = .ok t →
      ofLine (k.line comment) = .ok (k,
        if words comment = [] then none else some (String.intercalate " " (words comment)))) ∧
    ∀ s k own, ofLine s = .ok (k, own) →
      ofLine (k.line (own.getD "")) = .ok (k, own) ∧
        reprint (k.line (own.getD "")) = .ok (k.line (own.getD "")) := by
  constructor
  · intro b k t comment hKey hType
    rw [ofLine_line (valid_of_ofBlob hKey) hType, Text.words_trim,
      joined_eq fun w hw => Text.isWord_of_mem_words hw]
  · intro s k own hLine
    have hAgain := ofLine_line_getD hLine
    exact ⟨hAgain, reprint_of_ofLine hAgain⟩

/-- Blanks of three kinds, an alias of the name and a byte behind the key are all gone. -/
example :
    reprint "\tssh-rsa  AAAADHJzYS1zaGEyLTI1NgAAAAEDAAAAASEA me  at home\n" =
      .ok "ssh-rsa AAAAB3NzaC1yc2EAAAABAwAAAAEh me at home" := by
  decide +kernel

end PublicKey

end SshKeys
