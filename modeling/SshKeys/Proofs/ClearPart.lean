import SshKeys.Proofs.Container

/-!
# What a sealed container shows

A sealed container is its clear part, its private section and its tag.  The clear part
comes from the cipher, the public key, the random source and two lengths, and so does
every refusal to write one, by the allocator or otherwise: `Container.clearPart` computes
either without the passphrase, the private key and the comment.

* `Container.payload_goesOn`: **what is written is the clear part with a section and a
  tag of known lengths behind it**.
* `Armor.lineEnds_wrap`: the lines of an armored text end where its length says.
* `Container.clear_part_public`: two containers from one source, with private keys of one
  length and comments of one length, differ in their sections and tags only.
-/

namespace SshKeys

/-! ## Line ends -/

namespace Armor

/-- For each character of a text, whether it ends a line. -/
def lineEnds (text : String) : List Bool :=
  text.toList.map (· == '\n')

/-- No line ends inside of what base64 is written in. -/
theorem map_text_lineFeed (payload : Bytes) :
    (Base64.text payload).map (· == '\n') =
      List.replicate ((payload.length + 2) / 3 * 4) false := by
  refine List.eq_replicate_iff.2 ⟨?_, ?_⟩
  · rw [List.length_map, Base64.text, List.length_map, Base64.length_encode]
  · intro b hb
    obtain ⟨c, hc, rfl⟩ := List.mem_map.1 hb
    exact Base64.forall_mem_text (fun c => (c == '\n') = false) payload (by decide) (by decide) c hc

/-- The lengths of the lines come from the length of the payload. -/
theorem map_bodyText_lineFeed {payload : Bytes} (h : payload ≠ []) :
    (bodyText payload).map (· == '\n') =
      (chunks lineWidth (List.replicate ((payload.length + 2) / 3 * 4) false)).flatMap
        (· ++ [true]) := by
  rw [bodyText, bodyLines_eq_chunks h, ← map_text_lineFeed, chunks_map, List.map_flatMap,
    List.flatMap_map]
  refine List.flatMap_congr fun l _ => ?_
  rw [List.map_append]
  rfl

theorem length_eq_of_lineEnds {a b : String} (h : lineEnds a = lineEnds b) :
    a.length = b.length := by
  have hLength := congrArg List.length h
  rwa [lineEnds, lineEnds, List.length_map, List.length_map, String.length_toList,
    String.length_toList] at hLength

theorem lineEnds_wrap {a b : Bytes} (h : a.length = b.length) :
    lineEnds (wrap a) = lineEnds (wrap b) := by
  by_cases hNil : a = []
  · rw [hNil, List.eq_nil_of_length_eq_zero (h.symm.trans (List.length_eq_zero_iff.2 hNil))]
  · have hNe : b ≠ [] := by
      intro hb
      rw [hb] at h
      exact hNil (List.eq_nil_of_length_eq_zero h)
    have hBody : (bodyText a).map (· == '\n') = (bodyText b).map (· == '\n') := by
      rw [map_bodyText_lineFeed hNil, map_bodyText_lineFeed hNe, h]
    simp only [lineEnds, toList_wrap, wrapList_eq, framed, List.map_append, List.map_cons, hBody]

end Armor

/-! ## One container -/

/-- The section and the tag are the last of a payload. -/
theorem ContainerHeader.exists_front (h : ContainerHeader) :
    ∃ front, h.payload = front ++ h.privateSection ++ h.tag := by
  refine ⟨magic ++ Field.putText h.cipherName ++ Field.putText h.kdfName
    ++ Field.putString (putOptions h.kdf) ++ Bytes.be32 1 ++ Field.putString h.publicBlob
    ++ Bytes.be32 (UInt32.ofNat h.privateSection.length), ?_⟩
  rw [payload, Field.putString.eq_1 h.privateSection]
  simp only [List.append_assoc]

namespace Container

/-- A sealed container without its seal, and so without the private key and the comment. -/
def clearPart (memory : Allocator) (publicBlob : Bytes) (requested : CipherKind)
    (pairLength commentLength : Nat) : Random Bytes := do
  let profile := requested.forEncryption.profile
  let n := Section.length pairLength commentLength profile.blockSize
  let kdf ← KdfParameters.generate
  let _ ← Random.word
  (memory.ask "private section" n : Except Failure Unit)
  (Field.checkLength commentLength : Except Failure Unit)
  if requested.forEncryption = .chacha20Poly1305 ∧ ¬ChaChaPoly.Lasts n then
    throw (.cipherFailure .keystream)
  let b ← (write memory profile (some kdf) publicBlob n [] : Except Failure (Buffer UInt8))
  pure b.written

/-- What is written goes on from the clear part with a section and a tag, or is refused as the
clear part is. -/
inductive GoesOn (sectionLength tagLength : Nat) : (clear : Except Failure (Bytes × Bytes)) →
    (written : Except Failure (Buffer UInt8 × Bytes)) → Prop
  | refused (f : Failure) : GoesOn sectionLength tagLength (.error f) (.error f)
  | written (clear rest : Bytes) {b : Buffer UInt8} {sealed tag : Bytes}
      (hWritten : b.written = clear ++ sealed ++ tag) (hSealed : sealed.length = sectionLength)
      (hTag : tag.length = tagLength) :
      GoesOn sectionLength tagLength (.ok (clear, rest)) (.ok (b, rest))

section Steps

variable {α : Type} {n m : Nat}

/-- A step that both of them take. -/
theorem GoesOn.bind {x : Random α} {f : α → Random Bytes} {g : α → Random (Buffer UInt8)}
    {source : Bytes}
    (h : ∀ a rest, x source = .ok (a, rest) → GoesOn n m (f a rest) (g a rest)) :
    GoesOn n m ((x >>= f) source) ((x >>= g) source) := by
  cases hx : x source with
  | error e =>
    rw [StateExcept.bind_of_error hx, StateExcept.bind_of_error hx]
    exact .refused e
  | ok p =>
    obtain ⟨a, rest⟩ := p
    rw [StateExcept.bind_of_ok hx, StateExcept.bind_of_ok hx]
    exact h a rest hx

/-- A step that both of them take and that draws nothing. -/
theorem GoesOn.check {x : Except Failure α} {f : α → Except Failure (Bytes × Bytes)}
    {g : α → Except Failure (Buffer UInt8 × Bytes)} (h : ∀ a, GoesOn n m (f a) (g a)) :
    GoesOn n m (x >>= f) (x >>= g) := by
  cases x with
  | error e => exact .refused e
  | ok a => exact h a

end Steps

/-- The seal is the last that is written, and it decides nothing. -/
theorem write_goesOn {profile : CipherProfile} {sealed : Bytes} {n : Nat}
    (hSealed : sealed.length = n + profile.tagLength) (memory : Allocator)
    (kdf : Option KdfParameters) (publicBlob rest : Bytes) :
    GoesOn n profile.tagLength
      (write memory profile kdf publicBlob n [] >>= fun b => .ok (b.written, rest))
      (write memory profile kdf publicBlob n sealed >>= fun b => .ok (b, rest)) := by
  have hSection : (sealed.take n).length = n := List.length_take_of_le (by omega)
  have hTag : (sealed.drop n).length = profile.tagLength := by
    rw [List.length_drop, hSealed, Nat.add_sub_cancel_left]
  simp only [write, bind_assoc]
  refine GoesOn.check fun _ => GoesOn.check fun _ => ?_
  split
  · exact .refused _
  · refine .written _ rest ?_ hSection hTag
    simp only [Buffer.written_writeAll, List.flatten_cons, List.flatten_nil, List.append_nil,
      List.append_assoc, List.take_append_drop]

variable {memory : Allocator} {pair publicBlob source : Bytes} {requested : CipherKind}
  {comment : Option String} {s : String}

/-- Nothing behind the clear part decides whether a container is written. -/
theorem payload_goesOn (hs : s ≠ "") (memory : Allocator) (pair publicBlob source : Bytes)
    (requested : CipherKind) (comment : Option String) :
    GoesOn (Section.length pair.length (comment.getD "").utf8ByteSize
        requested.forEncryption.profile.blockSize) requested.forEncryption.profile.tagLength
      (clearPart memory publicBlob requested pair.length (comment.getD "").utf8ByteSize source)
      (payload memory pair publicBlob (some s) requested comment source) := by
  have hLength (check : UInt32) := Section.length_build check pair (comment.getD "")
    requested.forEncryption.profile.blockSize
  simp only [payload, clearPart, nonEmpty_some hs, Section.write_eq]
  generalize Section.length pair.length (comment.getD "").utf8ByteSize
    requested.forEncryption.profile.blockSize = n at hLength
  refine GoesOn.bind fun kdf _ hKdf => GoesOn.bind fun check rest _ => ?_
  simp only [StateExcept.lift_bind, StateExcept.lift_eq, bind_assoc]
  refine GoesOn.check fun _ => GoesOn.check fun _ => ?_
  -- The salt has the right length, so the key material is derived and used.
  obtain ⟨hSalt, rfl, -⟩ := KdfParameters.generate_eq_ok_iff.1 hKdf
  obtain ⟨material, hMaterial, hMaterialLength⟩ := exists_material_drawnFrom hs hSalt requested
  simp only [Result.ok_bind, Buffer.written_full, hMaterial, hLength]
  split
  · next hLong =>
    have hNot : ¬requested.forEncryption.Lasts (Section.build check pair (comment.getD "")
        requested.forEncryption.profile.blockSize).length := by
      rw [hLength]
      exact fun hLasts => hLong.2 (hLasts hLong.1)
    rw [CipherProfile.encrypt_of_not_lasts hMaterialLength hNot]
    exact .refused _
  · next hShort =>
    have hLasts : requested.forEncryption.Lasts (Section.build check pair (comment.getD "")
        requested.forEncryption.profile.blockSize).length := by
      rw [hLength]
      exact fun hSame => not_not.1 fun hNot => hShort ⟨hSame, hNot⟩
    obtain ⟨sealed, hSealed, hSealedLength, -⟩ :=
      CipherProfile.exists_encrypt hMaterialLength hLasts
    rw [hLength] at hSealedLength
    rw [hSealed, StateExcept.lift_bind]
    exact write_goesOn hSealedLength memory _ publicBlob rest

/-- A container that was written, as its reader sees it. -/
theorem exists_encode_of_clearPart {clear rest : Bytes} (hs : s ≠ "")
    (hClear : clearPart memory publicBlob requested pair.length (comment.getD "").utf8ByteSize
      source = .ok (clear, rest)) :
    ∃ text h, encodeWith memory pair publicBlob (some s) requested comment source =
        .ok (text, rest) ∧
      ContainerHeader.parse text = .ok h ∧
      h.privateSection.length = Section.length pair.length (comment.getD "").utf8ByteSize
        requested.forEncryption.profile.blockSize ∧
      h.tag.length = requested.forEncryption.profile.tagLength ∧
      h.payload = clear ++ h.privateSection ++ h.tag ∧ text = Armor.wrap h.payload := by
  have hCipher := cipherFor_of_some (nonEmpty_some hs) requested
  have hGoesOn := payload_goesOn hs memory pair publicBlob source requested comment
  rw [hClear] at hGoesOn
  generalize hPayload : payload memory pair publicBlob (some s) requested comment source = outcome
    at hGoesOn
  cases hGoesOn with
  | @written _ _ b sealed tag hBytes hSealed hTag =>
    obtain ⟨hSource, hLengths⟩ := bounds_of_payload hPayload
    obtain ⟨h, hOwn, hWritten⟩ := exists_payload hSource hLengths
    have hOwnTag := hWritten.tag_length
    have hOwnSection := hWritten.opens.length_eq hOwnTag
    rw [Section.length_build] at hOwnSection
    obtain ⟨_, -, hFull⟩ := Result.bind_eq_ok_iff.1 ((hOwn memory).symm.trans hPayload)
    cases hFull
    rw [Buffer.written_full] at hBytes
    rw [hCipher] at hOwnTag hOwnSection
    -- Section and tag are found from the end of the payload.
    obtain ⟨front, hFront⟩ := h.exists_front
    obtain ⟨hFront, hEnd⟩ :=
      List.append_inj' (hFront.symm.trans hBytes) (hOwnTag.trans hTag.symm)
    obtain ⟨-, hMiddle⟩ := List.append_inj' hFront (hOwnSection.symm.trans hSealed.symm)
    refine ⟨Armor.wrap h.payload, h, ?_,
      ContainerHeader.parse_wrap (hWritten.valid hSource hLengths), hOwnSection.symm, hOwnTag, ?_,
      rfl⟩
    · rw [encodeWith, StateExcept.bind_of_ok hPayload, Buffer.written_full]
      rfl
    · rw [hMiddle, hEnd, hBytes]

theorem encodeWith_of_clearPart_error {f : Failure} (hs : s ≠ "")
    (hClear : clearPart memory publicBlob requested pair.length (comment.getD "").utf8ByteSize
      source = .error f) :
    encodeWith memory pair publicBlob (some s) requested comment source = .error f := by
  have hGoesOn := payload_goesOn hs memory pair publicBlob source requested comment
  rw [hClear] at hGoesOn
  generalize hPayload : payload memory pair publicBlob (some s) requested comment source = outcome
    at hGoesOn
  cases hGoesOn with
  | refused _ => exact StateExcept.bind_of_error hPayload

/-! ## Two containers -/

/-- **The clear part carries no secret.**  With one allocator and from one source, for one public
key and under one cipher, private keys of one length and comments of one length are both refused in
the same way or both written.  Then the same is left of the source, the two texts have their lines
in the same places, and the two payloads have the same bytes up to their private sections; these are
of one length, as are the tags behind them. -/
theorem clear_part_public {pair₁ pair₂ : Bytes} {comment₁ comment₂ : Option String}
    {s₁ s₂ : String} (memory : Allocator) (publicBlob : Bytes) (requested : CipherKind)
    (source : Bytes) (hs₁ : s₁ ≠ "") (hs₂ : s₂ ≠ "") (hPair : pair₁.length = pair₂.length)
    (hComment : (comment₁.getD "").utf8ByteSize = (comment₂.getD "").utf8ByteSize) :
    (∃ f, encodeWith memory pair₁ publicBlob (some s₁) requested comment₁ source = .error f ∧
      encodeWith memory pair₂ publicBlob (some s₂) requested comment₂ source = .error f) ∨
    ∃ text₁ text₂ rest h₁ h₂ clear,
      encodeWith memory pair₁ publicBlob (some s₁) requested comment₁ source = .ok (text₁, rest) ∧
      encodeWith memory pair₂ publicBlob (some s₂) requested comment₂ source = .ok (text₂, rest) ∧
      text₁.length = text₂.length ∧ Armor.lineEnds text₁ = Armor.lineEnds text₂ ∧
      ContainerHeader.parse text₁ = .ok h₁ ∧ ContainerHeader.parse text₂ = .ok h₂ ∧
      Armor.unwrap text₁ = .ok (clear ++ h₁.privateSection ++ h₁.tag) ∧
      Armor.unwrap text₂ = .ok (clear ++ h₂.privateSection ++ h₂.tag) ∧
      h₁.privateSection.length = h₂.privateSection.length ∧ h₁.tag.length = h₂.tag.length := by
  cases hClear₁ : clearPart memory publicBlob requested pair₁.length
    (comment₁.getD "").utf8ByteSize source with
  | error f =>
    have hClear₂ := hClear₁
    rw [hPair, hComment] at hClear₂
    exact .inl ⟨f, encodeWith_of_clearPart_error hs₁ hClear₁,
      encodeWith_of_clearPart_error hs₂ hClear₂⟩
  | ok written =>
    obtain ⟨clear, rest⟩ := written
    have hClear₂ := hClear₁
    rw [hPair, hComment] at hClear₂
    obtain ⟨text₁, h₁, hEncode₁, hParse₁, hSection₁, hTag₁, hPayload₁, rfl⟩ :=
      exists_encode_of_clearPart hs₁ hClear₁
    obtain ⟨text₂, h₂, hEncode₂, hParse₂, hSection₂, hTag₂, hPayload₂, rfl⟩ :=
      exists_encode_of_clearPart hs₂ hClear₂
    have hSection : h₁.privateSection.length = h₂.privateSection.length := by
      rw [hSection₁, hSection₂, hPair, hComment]
    have hTag : h₁.tag.length = h₂.tag.length := hTag₁.trans hTag₂.symm
    have hLength : h₁.payload.length = h₂.payload.length := by
      rw [hPayload₁, hPayload₂]
      simp only [List.length_append, hSection, hTag]
    have hEnds := Armor.lineEnds_wrap hLength
    refine .inr ⟨_, _, rest, h₁, h₂, clear, hEncode₁, hEncode₂, Armor.length_eq_of_lineEnds hEnds,
      hEnds, hParse₁, hParse₂, ?_, ?_, hSection, hTag⟩
    · rw [Armor.unwrap_wrap h₁.payload_ne_nil, hPayload₁]
    · rw [Armor.unwrap_wrap h₂.payload_ne_nil, hPayload₂]

/-- Two private keys of three bytes from twenty zero bytes, the second under a longer passphrase. -/
theorem clear_part_public_three :
    ∃ text₁ text₂ rest h₁ h₂ clear,
      encode [1, 2, 3] [4] (some "p") .chacha20Poly1305 (some "a") (Bytes.zeros 20) =
        .ok (text₁, rest) ∧
      encode [5, 6, 7] [4] (some "longer") .chacha20Poly1305 (some "b") (Bytes.zeros 20) =
        .ok (text₂, rest) ∧
      Armor.lineEnds text₁ = Armor.lineEnds text₂ ∧
      Armor.unwrap text₁ = .ok (clear ++ (h₁ : ContainerHeader).privateSection ++ h₁.tag) ∧
      Armor.unwrap text₂ = .ok (clear ++ (h₂ : ContainerHeader).privateSection ++ h₂.tag) := by
  obtain ⟨⟨clear, rest⟩, hClear⟩ : ∃ written,
      clearPart .unlimited [4] .chacha20Poly1305 3 1 (Bytes.zeros 20) = .ok written := ⟨_, rfl⟩
  have hFirst : "p" ≠ "" := by decide
  have hSecond : "longer" ≠ "" := by decide
  obtain ⟨text, -, hEncode, -⟩ :=
    @exists_encode_of_clearPart .unlimited [1, 2, 3] [4] _ .chacha20Poly1305 (some "a") "p" _ _
      hFirst hClear
  rcases @clear_part_public [1, 2, 3] [5, 6, 7] (some "a") (some "b") "p" "longer" .unlimited
    [4] .chacha20Poly1305 (Bytes.zeros 20) hFirst hSecond rfl rfl with ⟨f, hRefused, -⟩ | hWritten
  · rw [hEncode] at hRefused
    cases hRefused
  · obtain ⟨text₁, text₂, rest, h₁, h₂, clear, hEncode₁, hEncode₂, -, hEnds, -, -, hUnwrap₁,
      hUnwrap₂, -⟩ := hWritten
    exact ⟨text₁, text₂, rest, h₁, h₂, clear, hEncode₁, hEncode₂, hEnds, hUnwrap₁, hUnwrap₂⟩

end Container

end SshKeys
