import SshKeys.Proofs.Armor

/-!
# The texts an armor is read from

A text is read if base64 stands between the first begin marker and the first end
marker behind it, however it is mixed with characters base64 is not written in.

* `body?_eq_ok_iff`: the body is what stands between these two markers.
* `unwrap_eq_ok_iff`: **a text is read as a payload exactly when the symbols of its
  body are the written form of the payload, and there is at least one**.
* `unwrap_language`: any other text is malformed, and the symbols of a body can be
  told from the payload.
-/

namespace SshKeys.Armor

variable {text body : List Char} {payload : Bytes}

/-! ## The body -/

/-- `body` stands between the first begin marker of `text` and the first end marker behind it. -/
def IsBetweenMarkers (text body : List Char) : Prop :=
  ∃ before rest after, Text.SplitsAt beginMarker.toList text before rest ∧
    Text.SplitsAt endMarker.toList rest body after

theorem body?_eq_ok_iff : body? text = .ok body ↔ IsBetweenMarkers text body := by
  rw [body?]
  constructor
  · intro h
    split at h
    · cases h
    · next before rest hBegin =>
      split at h
      · cases h
      · next found after hEnd =>
        cases h
        exact ⟨before, rest, after, Text.cut?_eq_some_iff.1 hBegin, Text.cut?_eq_some_iff.1 hEnd⟩
  · rintro ⟨before, rest, after, hBegin, hEnd⟩
    rw [Text.cut?_eq_some_iff.2 hBegin]
    simp only [Text.cut?_eq_some_iff.2 hEnd]

theorem IsBetweenMarkers.unique {body' : List Char} (h : IsBetweenMarkers text body)
    (h' : IsBetweenMarkers text body') : body = body' :=
  Except.ok.inj ((body?_eq_ok_iff.2 h).symm.trans (body?_eq_ok_iff.2 h'))

/-! ## Its symbols -/

/-- Letters and digits of ASCII, the two signs of base64 and its padding. -/
theorem isArmorChar_iff {c : Char} : isArmorChar c = true ↔
    'A' ≤ c ∧ c ≤ 'Z' ∨ 'a' ≤ c ∧ c ≤ 'z' ∨ '0' ≤ c ∧ c ≤ '9' ∨ c = '+' ∨ c = '/' ∨ c = '=' := by
  have hAlphanum : c.isAlphanum = (decide ('A' ≤ c ∧ c ≤ 'Z')
      || decide ('a' ≤ c) && decide (c ≤ 'z') || decide ('0' ≤ c) && decide (c ≤ '9')) := rfl
  simp only [isArmorChar, hAlphanum, Bool.or_eq_true, Bool.and_eq_true, decide_eq_true_eq,
    beq_iff_eq, or_assoc]

theorem lt_of_isArmorChar {c : Char} (h : isArmorChar c = true) : c.toNat < 128 := by
  have hLast {d : Char} (hd : d.toNat < 128) (hc : c ≤ d) : c.toNat < 128 :=
    lt_of_le_of_lt (UInt32.le_iff_toNat_le.1 hc) hd
  rcases isArmorChar_iff.1 h with ⟨-, h⟩ | ⟨-, h⟩ | ⟨-, h⟩ | rfl | rfl | rfl
  · exact hLast (by decide) h
  · exact hLast (by decide) h
  · exact hLast (by decide) h
  · decide
  · decide
  · decide

/-- The characters of a body that count. -/
def symbols (body : List Char) : List Char :=
  body.filter isArmorChar

/-- The symbols can be compared as characters or as bytes. -/
theorem cleaned_eq_encode_iff :
    cleaned body = Base64.encode payload ↔ symbols body = Base64.text payload := by
  have hBack : (cleaned body).map (fun x => Char.ofNat x.toNat) = symbols body := by
    rw [cleaned, List.map_map]
    refine (List.map_congr_left fun c hc => ?_).trans (List.map_id _)
    have hLt := lt_of_isArmorChar (List.mem_filter.1 hc).2
    rw [Function.comp_apply, UInt8.toNat_ofNat', Nat.mod_eq_of_lt (by omega), Char.ofNat_toNat, id]
  constructor
  · intro h
    rw [← hBack, h, Base64.text]
  · intro h
    rw [symbols] at h
    rw [cleaned, h, Base64.map_text]

theorem cleaned_eq_nil_iff : cleaned body = [] ↔ symbols body = [] :=
  List.map_eq_nil_iff

/-! ## Reading -/

/-- The body of `text` is `payload` in base64, with characters mixed in that are not of base64. -/
def IsArmored (text : List Char) (payload : Bytes) : Prop :=
  ∃ body, IsBetweenMarkers text body ∧ symbols body ≠ [] ∧ symbols body = Base64.text payload

theorem unwrapList_eq_ok_iff : unwrapList text = .ok payload ↔ IsArmored text payload := by
  constructor
  · intro h
    rw [unwrapList] at h
    obtain ⟨body, hBody, h⟩ := Result.bind_eq_ok_iff.1 h
    obtain ⟨hNe, h⟩ := Result.refuse_eq_ok_iff.1 h
    split at h
    · next found hDecode =>
      cases h
      exact ⟨body, body?_eq_ok_iff.1 hBody, mt cleaned_eq_nil_iff.2 hNe,
        cleaned_eq_encode_iff.1 (Base64.decode_eq_ok_iff.1 hDecode)⟩
    · cases h
  · rintro ⟨body, hBody, hNe, hSymbols⟩
    refine unwrapList_of_body? (body?_eq_ok_iff.2 hBody) (cleaned_eq_encode_iff.2 hSymbols) ?_
    rintro rfl
    exact hNe hSymbols

/-- **A text is read as a payload exactly when it is armor of that payload.** -/
theorem unwrap_eq_ok_iff {text : String} :
    unwrap text = .ok payload ↔ IsArmored text.toList payload := by
  rw [unwrap, ← unwrapList_eq_ok_iff]
  cases unwrapList text.toList with
  | ok found => rw [Except.ok.injEq, Except.ok.injEq]
  | error fault =>
    constructor
    · rintro ⟨⟩
    · rintro ⟨⟩

/-- **The armored texts of a payload are those whose body has its written form for symbols.**  All
other texts are malformed, and bodies with different symbols have different payloads. -/
theorem unwrap_language :
    (∀ (text : String) (payload : Bytes),
      unwrap text = .ok payload ↔ IsArmored text.toList payload) ∧
    (∀ text : String, (∀ payload, ¬IsArmored text.toList payload) →
      ∃ fault, unwrap text = .error (.malformedContainer fault)) ∧
    ∀ (text text' : String) (body body' : List Char) (payload : Bytes),
      IsBetweenMarkers text.toList body → IsBetweenMarkers text'.toList body' →
      unwrap text = .ok payload → unwrap text' = .ok payload → symbols body = symbols body' := by
  refine ⟨fun text payload => unwrap_eq_ok_iff, ?_, ?_⟩
  · intro text hNot
    cases h : unwrap text with
    | ok payload => exact absurd (unwrap_eq_ok_iff.1 h) (hNot payload)
    | error f =>
      obtain ⟨fault, rfl⟩ := exists_fault_of_unwrap_error h
      exact ⟨fault, rfl⟩
  · intro text text' body body' payload hBody hBody' h h'
    -- A text has one body, so it is the one that was read.
    obtain ⟨found, hFound, -, hSymbols⟩ := unwrap_eq_ok_iff.1 h
    obtain ⟨found', hFound', -, hSymbols'⟩ := unwrap_eq_ok_iff.1 h'
    rw [hBody.unique hFound, hBody'.unique hFound', hSymbols, hSymbols']

/-- Three bytes on one line and spread over two, and a last group with a stray bit. -/
theorem unwrap_language_three :
    let text := String.ofList (framed [] "AQID".toList [])
    let spread := String.ofList (framed "key: ".toList "\n AQ\u00e9\r\n ID\n".toList "--".toList)
    let stray := String.ofList (framed [] "\nAR==\n".toList ['\n'])
    unwrap text = .ok [1, 2, 3] ∧ unwrap spread = .ok [1, 2, 3] ∧
      symbols "AQID".toList = symbols "\n AQ\u00e9\r\n ID\n".toList ∧
      (∀ payload, ¬IsArmored stray.toList payload) ∧
      ∃ fault, unwrap stray = .error (.malformedContainer fault) := by
  intro text spread stray
  have hBody {before inner after : List Char} (hBefore : '-' ∉ before) (hInner : '-' ∉ inner) :
      IsBetweenMarkers (String.ofList (framed before inner after)).toList inner := by
    rw [String.toList_ofList]
    exact body?_eq_ok_iff.1 (body?_framed hBefore hInner after)
  have hText : unwrap text = .ok [1, 2, 3] :=
    unwrap_framed (by decide) (by decide) (by decide) (by decide)
  have hSpread : unwrap spread = .ok [1, 2, 3] :=
    unwrap_framed (by decide) (by decide) (by decide) (by decide)
  have hStray : ∀ payload, ¬IsArmored stray.toList payload := by
    rintro payload ⟨body, hOwn, -, hSymbols⟩
    have hDecode := Base64.decode_encode payload
    rw [hOwn.unique (hBody (by decide) (by decide)), ← cleaned_eq_encode_iff] at hSymbols
    rw [← hSymbols] at hDecode
    cases hDecode
  exact ⟨hText, hSpread, unwrap_language.2.2 text spread _ _ [1, 2, 3]
    (hBody (by decide) (by decide)) (hBody (by decide) (by decide)) hText hSpread, hStray,
    unwrap_language.2.1 stray hStray⟩

end SshKeys.Armor
