import SshKeys.Proofs.Container

/-!
# Room for secrets

The armored text, the plaintext of a private section, the binary form of a key pair and
the payload of a container are each written into a buffer whose room is computed before,
by a formula that stands apart from the writer.  What a formula gives too little shows
in no output: the buffer moves, and what it held stays behind.  So the lengths are
computed here once more, from what is written.

* `Armor.length_wrap`, `Section.length_build`, `KeyPair.length_blob`,
  `Container.length_payload`: the lengths that are computed are those of what is written.
* `secrets_exact`: **the writers end with full buffers that never moved**, and no other
  division of the text into pieces would have moved them.
-/

namespace SshKeys

/-! ## Lengths -/

namespace Armor

/-- Of the lines of a text each takes one character more than it holds. -/
theorem length_lines (lines : List (List Char)) :
    (lines.flatMap (· ++ ['\n'])).length = lines.flatten.length + lines.length := by
  induction lines with
  | nil => rfl
  | cons l lines ih =>
    rw [List.flatMap_cons, List.length_append, ih, List.length_append, List.flatten_cons,
      List.length_append, List.length_cons, List.length_cons, List.length_nil]
    omega

theorem length_flatten_bodyLines (payload : Bytes) :
    (bodyLines payload).flatten.length = (payload.length + 2) / 3 * 4 := by
  rw [flatten_bodyLines, Base64.text, List.length_map, Base64.length_encode]

/-- As many lines as base64 fills, the last one perhaps in part; one if there is nothing. -/
theorem length_bodyLines (payload : Bytes) :
    (bodyLines payload).length =
      max 1 (((payload.length + 2) / 3 * 4 + lineWidth - 1) / lineWidth) := by
  by_cases h : payload = []
  · rw [h, bodyLines, Base64.text, Base64.encode, List.map_nil, chunks_nil]
    decide
  · have hLength := length_flatten_bodyLines payload
    have hPos : 0 < payload.length := List.length_pos_iff.2 h
    rw [bodyLines_eq_chunks h, flatten_chunks lineWidth (by decide)] at hLength
    rw [bodyLines_eq_chunks h, chunks_eq_map_range (by decide), List.length_map, List.length_range,
      hLength, lineWidth]
    omega

theorem length_wrapList (payload : Bytes) :
    (wrapList payload).length = wrappedLength payload.length := by
  rw [wrapList, length_lines, List.flatten_append, List.flatten_cons, List.length_append,
    List.length_append, List.length_append, length_flatten_bodyLines, List.length_cons,
    length_bodyLines, wrappedLength]
  simp only [List.flatten_cons, List.flatten_nil, List.append_nil, List.length_cons,
    List.length_nil, String.length_toList]
  omega

theorem isAscii_wrapList (payload : Bytes) : Bytes.isAscii (wrapList payload) = true := by
  refine Bytes.isAscii_iff.2 fun c hc => ?_
  obtain ⟨l, hl, hc⟩ := List.mem_flatMap.1 hc
  have hLine : c ∈ l ∨ c = '\n' := by simpa using hc
  rcases hLine with hc | rfl
  · rcases List.mem_cons.1 hl with rfl | hl
    · exact Bytes.isAscii_iff.1 (by decide : Bytes.isAscii beginMarker.toList = true) c hc
    · rcases List.mem_append.1 hl with hl | hl
      · exact Bytes.isAscii_iff.1 (Base64.isAscii_text payload) c (mem_text_of_mem_bodyLines hl hc)
      · rw [List.mem_singleton.1 hl] at hc
        exact Bytes.isAscii_iff.1 (by decide : Bytes.isAscii endMarker.toList = true) c hc
  · decide

/-- An armored text has as many bytes as characters. -/
theorem length_wrap (payload : Bytes) :
    (Bytes.ofString (wrap payload)).length = wrappedLength payload.length := by
  have hList := toList_wrap payload
  rw [Bytes.ofString_ascii (by rw [hList]; exact isAscii_wrapList payload), List.length_map, hList,
    length_wrapList]

/-- What is written is the armored text, in a buffer with room for nothing else. -/
theorem write_eq (payload : Bytes) : write payload = .full (wrap payload).toList := by
  rw [toList_wrap]
  exact Buffer.writeAll_eq_full (length_wrapList payload) (flatten_lines payload)

end Armor

namespace Container

variable {memory : Allocator} {pair publicBlob source rest : Bytes}
  {passphrase comment : Option String} {requested : CipherKind} {b : Buffer UInt8}

/-- A payload that was written has the length that was computed for it, and fills its buffer. -/
theorem full_of_payload
    (h : payload memory pair publicBlob passphrase requested comment source = .ok (b, rest)) :
    b = .full b.written ∧ b.written.length =
      payloadLength (cipherFor passphrase requested).profile (kdfFor passphrase source)
        publicBlob.length (Section.length pair.length (comment.getD "").utf8ByteSize
          (cipherFor passphrase requested).profile.blockSize) := by
  obtain ⟨hSource, hLengths⟩ := bounds_of_payload h
  obtain ⟨header, hOwn, hWritten⟩ := exists_payload hSource hLengths
  obtain ⟨_, -, hFull⟩ := Result.bind_eq_ok_iff.1 ((hOwn memory).symm.trans h)
  cases hFull
  have hSection := hWritten.opens.length_eq hWritten.tag_length
  rw [Section.length_build] at hSection
  have hName : header.cipherName = (cipherFor passphrase requested).profile.name :=
    hWritten.cipherName_eq
  obtain ⟨hKdfName, hKdf⟩ : header.kdfName = KdfParameters.nameOf (kdfFor passphrase source) ∧
      header.kdf = kdfFor passphrase source := by
    rcases hWritten.kdf_eq with ⟨hKdfName, hKdf, hNone⟩ | ⟨hKdfName, hKdf, hSome⟩
    · rw [kdfFor_of_none hNone]
      exact ⟨hKdfName, hKdf⟩
    · obtain ⟨secret, hSecret⟩ := Option.ne_none_iff_exists'.1 hSome
      rw [kdfFor_of_some hSecret]
      exact ⟨hKdfName, hKdf⟩
  rw [Buffer.written_full]
  refine ⟨rfl, ?_⟩
  rw [length_header_payload, hName, hKdfName, hKdf, hWritten.publicBlob_eq, hWritten.tag_length,
    ← hSection, payloadLength]

end Container

/-- **Every buffer that holds a secret is given exactly the room it needs**: the armored text, the
plaintext of the private section, the binary form of a key pair, and the payload of a container, of
which the text that is written is the armor.  Each of them is written into a buffer that is full at
the end and never moved. -/
theorem secrets_exact :
    (∀ payload : Bytes,
      Buffer.Exact (Armor.wrappedLength payload.length) (Bytes.ofString (Armor.wrap payload)) ∧
      Armor.write payload = .full (Armor.wrap payload).toList) ∧
    (∀ (check : UInt32) (pair : Bytes) (comment : String) (block : Nat),
      Buffer.Exact (Section.length pair.length comment.utf8ByteSize block)
        (Section.build check pair comment block) ∧
      ∀ memory b, Section.write memory check pair comment block = .ok b →
        b = .full (Section.build check pair comment block)) ∧
    (∀ pair : KeyPair, Buffer.Exact pair.blobLength pair.blob ∧ pair.write = .full pair.blob) ∧
    ∀ (memory : Allocator) (pair publicBlob : Bytes) (passphrase : Option String)
      (requested : CipherKind) (comment : Option String) (source rest : Bytes) (text : String),
      Container.encodeWith memory pair publicBlob passphrase requested comment source =
        .ok (text, rest) →
      ∃ payload,
        Container.payload memory pair publicBlob passphrase requested comment source =
          .ok (.full payload, rest) ∧
        text = Armor.wrap payload ∧
        Buffer.Exact (Container.payloadLength (Container.cipherFor passphrase requested).profile
          (Container.kdfFor passphrase source) publicBlob.length
          (Section.length pair.length (comment.getD "").utf8ByteSize
            (Container.cipherFor passphrase requested).profile.blockSize)) payload := by
  refine ⟨fun payload => ?_, fun check pair comment block => ?_, fun pair => ?_,
    fun memory pair publicBlob passphrase requested comment source rest text h => ?_⟩
  · exact ⟨Buffer.exact_of_length (Armor.length_wrap payload), Armor.write_eq payload⟩
  · exact ⟨Buffer.exact_of_length (Section.length_build check pair comment block),
      fun _ _ => Section.eq_full_of_write⟩
  · exact ⟨Buffer.exact_of_length pair.length_blob, pair.write_eq⟩
  · obtain ⟨b, t, hPayload, hText⟩ := StateExcept.bind_eq_ok_iff.1 h
    cases hText
    obtain ⟨hFull, hLength⟩ := Container.full_of_payload hPayload
    exact ⟨b.written, hFull ▸ hPayload, rfl, Buffer.exact_of_length hLength⟩

/-- A sealed container with a tag: three bytes of a key, and a salt of zero bytes. -/
theorem secrets_exact_sealed :
    ∃ text rest payload,
      Container.encode [1, 2, 3] [4] (some "p") .chacha20Poly1305 (some "a") (Bytes.zeros 20) =
        .ok (text, rest) ∧
      text = Armor.wrap payload ∧ Buffer.Exact 131 payload := by
  have hSecret : nonEmpty (some "p") = some (Bytes.ofString "p") := nonEmpty_some (by decide)
  have hCipher : Container.cipherFor (some "p") .chacha20Poly1305 = .chacha20Poly1305 :=
    Container.cipherFor_of_some hSecret _
  have hKdf : Container.kdfFor (some "p") (Bytes.zeros 20) = some (.drawnFrom (Bytes.zeros 20)) :=
    Container.kdfFor_of_some hSecret _
  have hSource : Container.drawn (some "p") ≤ (Bytes.zeros 20).length := by
    rw [Container.drawn_of_some hSecret]
    decide
  have hLengths : Container.Declarable [1, 2, 3] [4] ((some "a").getD "")
      (Container.cipherFor (some "p") .chacha20Poly1305).profile.blockSize := by
    rw [hCipher]
    exact ⟨by decide, by decide⟩
  obtain ⟨h, hEncode, -⟩ := Container.exists_encodeWith hSource hLengths
  obtain ⟨payload, -, hText, hExact⟩ := secrets_exact.2.2.2 .unlimited [1, 2, 3] [4] (some "p")
    .chacha20Poly1305 (some "a") (Bytes.zeros 20) _ _ (hEncode .unlimited)
  have hMagic : ContainerHeader.magic.length = 15 := by
    rw [ContainerHeader.magic, List.length_append, Bytes.length_ofString]
    decide
  have hRoom : Container.payloadLength CipherKind.chacha20Poly1305.profile
      (some (.drawnFrom (Bytes.zeros 20))) 1 (Section.length 3 1 8) = 131 := by
    rw [Container.payloadLength, hMagic]
    decide
  rw [hCipher, hKdf] at hExact
  rw [← hRoom]
  exact ⟨_, _, payload, hEncode .unlimited, hText, hExact⟩

end SshKeys
