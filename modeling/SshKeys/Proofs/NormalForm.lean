import SshKeys.Proofs.Exported

/-!
# Containers in the clear

A conversion to a container in the clear draws nothing and keeps nothing of its
source but the key pair and the comment: `convert_clear_eq_ok_iff` gives the text
it writes.  What it has written is loaded as the key it was made from
(`PrivateKey.load_toContainer`), so `convert_clear_normal` can say that **such a
text is a normal form**, and that it is reached from every text with that key.

Its one exception is an RSA key from a document with a number that is longer than
a field.  The container of such a key is written and then refused
(`PrivateKey.load_toContainer_of_not_fits`); `not_convert_clear_again` gives one.
-/

namespace SshKeys

open KeyReader (maxLength Refuses yields_name refuses_behind_integer)

/-! ## Keys that are written in the clear -/

/-- The text is no container, or one under a cipher that is also written. -/
def IsNative (text : String) : Prop :=
  KeyFormat.ofText text = .openssh → ∃ kind : CipherKind, Declares text kind.name

namespace KeyPair

/-- What a reader gives has no number that is longer than a field. -/
theorem Valid.fits {k : KeyPair} (h : k.Valid) : k.Fits := by
  cases k with
  | rsa pair =>
    obtain ⟨⟨⟨-, he⟩, -, hn⟩, ⟨-, hd⟩, ⟨-, hiqmp⟩, ⟨-, hp⟩, -, hq⟩ := h
    exact ⟨hn, he, hd, hiqmp, hp, hq⟩
  | _ => trivial

end KeyPair

namespace PrivateKey

/-- Whether a key from a text can be read back hangs on the lengths of its numbers alone. -/
theorem valid_iff_fits_of_load {text : String} {passphrase : Option String} {k : PrivateKey}
    (h : load text passphrase = .ok k) : k.pair.Valid ↔ k.pair.Fits := by
  refine ⟨KeyPair.Valid.fits, fun hFits => ?_⟩
  by_cases hFormat : KeyFormat.ofText text = .openssh
  · exact valid_of_load hFormat h
  · exact (PemFile.isDerived_of_load hFormat h).1.valid hFits

/-- A native text does not hand on a check number. -/
theorem check_of_load {text : String} {passphrase : Option String} {k : PrivateKey}
    (hNative : IsNative text) (h : load text passphrase = .ok k) : k.check = none := by
  by_cases hFormat : KeyFormat.ofText text = .openssh
  · obtain ⟨kind, payload, hUnwrap, hName⟩ := hNative hFormat
    obtain ⟨c, -, rfl⟩ := exists_decode_of_load hUnwrap hName h
    rfl
  · rw [PemFile.load_of_format (KeyFormat.ofText_trim text) hFormat] at h
    split at h
    · cases h
    · obtain ⟨pair, -, h⟩ := Result.bind_eq_ok_iff.1 h
      rw [ofPair_eq_ok h]

end PrivateKey

/-! ## Keys that are not read back -/

/-- Of the numbers that are too long, the first is the one that is refused. -/
theorem KeyReader.refuses_keyPair_rsa {k : RsaPair} (hc : k.Canonical)
    (h : (KeyPair.rsa k).blob.length < 2 ^ 32) (hNot : ¬k.Fits) :
    Refuses keyPair (KeyPair.rsa k).blob .overflow := by
  have hNamed : Algorithm.rsa.IsNamed := Algorithm.isNamed fun _ => Algorithm.noConfusion
  simp only [KeyPair.blob, KeyPair.fields, List.length_append, Field.length_putString,
    Field.stringLength] at h
  refine (yields_name hNamed.1 hNamed.2).refuses ?_
  simp only [KeyPair.fields, List.append_assoc]
  refine refuses_behind_integer hc.n (by omega) fun hn => ?_
  refine refuses_behind_integer hc.e (by omega) fun he => ?_
  refine refuses_behind_integer hc.d (by omega) fun hd => ?_
  refine refuses_behind_integer hc.iqmp (by omega) fun hiqmp => ?_
  refine refuses_behind_integer hc.p (by omega) fun hp => ?_
  rw [← List.append_nil (Field.putString k.q)]
  exact refuses_behind_integer hc.q (by omega) fun hq =>
    absurd ⟨hn, he, hd, hiqmp, hp, hq⟩ hNot

theorem KeyPair.IsDerived.read_blob_of_not_fits {k : KeyPair} (h : k.IsDerived) (hNot : ¬k.Fits)
    (hLt : k.blob.length < 2 ^ 32) (rest : Bytes) : read (k.blob ++ rest) = .error .overflow := by
  rcases h.rsa_or_consistent with ⟨pair, m, rfl, -, hPair⟩ | ⟨-, hFits⟩
  · have hRun : KeyReader.keyPair (.ofBytes ((rsa pair).blob ++ rest)) = .error .overflow :=
      KeyReader.refuses_keyPair_rsa (RsaPair.canonical_of_ofNumbers? hPair) hLt hNot _ rest
        (.inl rfl) rfl fun l hl => nomatch hl
    rw [read, StateT.run, hRun]
    rfl
  · exact absurd hFits hNot

namespace PrivateKey

/-- A container that is written for a number too long for a field is refused, whatever passphrase
is given. -/
theorem load_toContainer_of_not_fits {k : PrivateKey} (hDerived : k.pair.IsDerived)
    (hNot : ¬k.pair.Fits) (hLengths : Container.Declarable k.pair.blob k.publicKey.blob k.comment
      CipherKind.none.profile.blockSize) (passphrase : Option String) :
    load k.toContainer passphrase = .error (.malformedContainer (.keyPair .overflow)) := by
  have hParse := parse_toContainer hLengths
  obtain ⟨payload, hUnwrap, hPayload⟩ := Result.bind_eq_ok_iff.1 hParse
  have hName := Detection.declaredNameOf_of_ofPayload hPayload
  have hLt : k.pair.blob.length < 2 ^ 32 := by
    have hSection : Section.length _ _ _ < 2 ^ 32 := hLengths.section_lt
    simp only [Section.length] at hSection
    omega
  have hLength : k.clearHeader.privateSection.length = Section.length k.pair.blob.length
      k.comment.utf8ByteSize CipherKind.none.profile.blockSize := Section.length_build ..
  have hNe : k.clearHeader.privateSection ≠ [] := by
    refine List.ne_nil_of_length_pos ?_
    simp only [hLength, Section.length]
    omega
  have hBlocks : k.clearHeader.privateSection.length % CipherKind.none.profile.blockSize = 0 := by
    rw [hLength]
    exact Section.mod_add_paddingLength (Container.blockSize_pos .none) _
  have hContent : (Section.parse k.clearHeader CipherKind.none.profile
      k.clearHeader.privateSection).1 = .error (.malformedContainer (.keyPair .overflow)) := by
    rw [clearHeader, Section.build, Section.content]
    simp only [List.append_assoc]
    exact Section.parse_of_read_error (hDerived.read_blob_of_not_fits hNot hLt _) _
  have hDecode : Container.decode k.toContainer passphrase =
      .error (.malformedContainer (.keyPair .overflow)) := by
    rw [Container.decode, hParse]
    exact Container.ofHeader_of_parse_error (CipherProfile.byName?_name .none) hNe hBlocks rfl rfl
      hContent
  rw [load_of_unwrap hUnwrap hName, hDecode]
  rfl

end PrivateKey

/-! ## The normal form -/

/-- The text that is written names the key and its comment, and nothing is drawn for it. -/
theorem convert_clear_eq_ok_iff {text : String} {passphrase : Option String} {k : PrivateKey}
    {o : ExportOptions} (hClear : o.IsClear) (hLoad : PrivateKey.load text passphrase = .ok k)
    {x : ExportedKey} {source rest : Bytes} :
    convert text passphrase o source = .ok (x, rest) ↔ ∃ i, k.info = .ok i ∧
      Container.Declarable k.pair.blob k.publicKey.blob k.comment
        CipherKind.none.profile.blockSize ∧ x = ⟨k.toContainer, .openssh, .none, i⟩ ∧
      rest = source := by
  rw [PrivateKey.convert_of_load hLoad hClear.validate_eq,
    PrivateKey.exportWith_clear_eq_ok_iff hClear]

/-- **Conversion to a container in the clear is a normal form.**  It draws nothing; what it gives
is fixed by the key pair and the comment of a native text; and converted again, with any
passphrase, it stays as it is, if the numbers of the key have the size of a field.  They do if
the key comes from a container.  Otherwise the second conversion is refused. -/
theorem convert_clear_normal {text : String} {passphrase : Option String} {o : ExportOptions}
    {x : ExportedKey} {source rest : Bytes} (hNative : IsNative text) (hClear : o.IsClear)
    (h : convert text passphrase o source = .ok (x, rest)) :
    rest = source ∧ ∃ k, PrivateKey.load text passphrase = .ok k ∧
      (∀ text' passphrase' o' source' x' rest' k', IsNative text' → o'.IsClear →
        PrivateKey.load text' passphrase' = .ok k' → k'.pair = k.pair → k'.comment = k.comment →
        convert text' passphrase' o' source' = .ok (x', rest') → x'.text = x.text) ∧
      (KeyFormat.ofText text = .openssh → k.pair.Fits) ∧
      (k.pair.Fits → ∀ q o' source', o'.IsClear →
        convert x.text q o' source' = .ok (x, source')) ∧
      (¬k.pair.Fits → ∀ q o' source', o'.IsClear →
        convert x.text q o' source' = .error (.malformedContainer (.keyPair .overflow))) := by
  obtain ⟨-, k, hLoad, -⟩ := exists_exportWith_of_convert h
  obtain ⟨i, hInfo, hLengths, rfl, rfl⟩ := (convert_clear_eq_ok_iff hClear hLoad).1 h
  have hFitsIff := PrivateKey.valid_iff_fits_of_load hLoad
  -- A key from a native text is no more than its pair and its comment.
  have hForm : k = ⟨k.pair, k.comment, none⟩ := by
    rw [← PrivateKey.check_of_load hNative hLoad]
  refine ⟨rfl, k, hLoad, ?_, ?_, ?_, ?_⟩
  · intro text' passphrase' o' source' x' rest' k' hNative' hClear' hLoad' hPair hComment h'
    obtain ⟨_, -, -, rfl, -⟩ := (convert_clear_eq_ok_iff hClear' hLoad').1 h'
    have hForm' : k' = k := by
      rw [hForm, ← hPair, ← hComment, ← PrivateKey.check_of_load hNative' hLoad']
    rw [hForm']
  · intro hFormat
    exact (PrivateKey.valid_of_load hFormat hLoad).fits
  · intro hFits q o' source' hClear'
    have hType := (PublicKey.describes_of_info hInfo).keyType
    have hAgain := PrivateKey.load_toContainer (hFitsIff.2 hFits) hType hLengths.section_lt q
    rw [← hForm] at hAgain
    exact (convert_clear_eq_ok_iff hClear' hAgain).2 ⟨i, hInfo, hLengths, rfl, rfl⟩
  · intro hNot q o' source' hClear'
    have hDerived : k.pair.IsDerived := by
      refine (PemFile.isDerived_of_load (fun hFormat => hNot ?_) hLoad).1
      exact (PrivateKey.valid_of_load hFormat hLoad).fits
    have hRefused := PrivateKey.load_toContainer_of_not_fits hDerived hNot hLengths q
    exact PrivateKey.convert_of_load_error hRefused hClear'.validate_eq source'

/-- A small RSA key from a document: its container is converted to itself. -/
theorem convert_clear_normal_rsa : ∃ x,
    convert (Pem.encode Pkcs1.label (Pkcs1.write ⟨15, 3, 3, 3, 5⟩ 2)) none {} [] = .ok (x, []) ∧
      ∀ q source, convert x.text q {} source = .ok (x, source) := by
  have hCheck : Rsa.check ⟨15, 3, 3, 3, 5⟩ = .ok () := rfl
  have hInverse : Rsa.Numbers.qinv? ⟨15, 3, 3, 3, 5⟩ = some 2 := by decide +kernel
  have hPair : RsaPair.ofNumbers? ⟨15, 3, 3, 3, 5⟩ =
      some ⟨[15], [3], [3], [2], [3], [5]⟩ := by decide +kernel
  have hNumbers : Rsa.Numbers.Fits ⟨15, 3, 3, 3, 5⟩ 1 := by
    constructor <;> decide +kernel
  have hLt : 2 < (⟨15, 3, 3, 3, 5⟩ : Rsa.Numbers).p := by decide
  have hNative : IsNative (Pem.encode Pkcs1.label (Pkcs1.write ⟨15, 3, 3, 3, 5⟩ 2)) := by
    intro hFormat
    rw [PemFile.ofText_encode PemFile.isPlain_pkcs1] at hFormat
    exact absurd hFormat (PemFile.formatOf_ne _)
  obtain ⟨x, hConvert, -⟩ := exists_convert_pkcs1 hCheck hInverse hLt hNumbers (by decide)
  obtain ⟨-, k, hLoad, -, -, hAgain, -⟩ := convert_clear_normal hNative ⟨rfl, rfl, rfl⟩ hConvert
  cases hLoad.symm.trans (load_pkcs1_write hCheck hPair hLt hNumbers (by decide) none)
  have hFits : (KeyPair.rsa ⟨[15], [3], [3], [2], [3], [5]⟩).Fits := by
    constructor <;> decide
  exact ⟨x, hConvert, fun q source => hAgain hFits q {} source ⟨rfl, rfl, rfl⟩⟩

/-- A private exponent with one byte more than a field: the key is converted from its document,
and what it is converted to is not converted again. -/
theorem not_convert_clear_again : ∃ x,
    convert (Pem.encode Pkcs1.label (Pkcs1.write ⟨15, 3, 256 ^ maxLength + 3, 3, 5⟩ 2)) none {}
      [] = .ok (x, []) ∧
    ∀ q source, convert x.text q {} source = .error (.malformedContainer (.keyPair .overflow)) := by
  obtain ⟨w, hMax⟩ : ∃ w, maxLength = w + 1 := ⟨_, rfl⟩
  obtain ⟨y, hy⟩ : ∃ y, 256 ^ maxLength = y := ⟨_, rfl⟩
  rw [hy]
  have hOne : 1 ≤ y := by
    rw [← hy]
    exact Nat.one_le_pow _ _ (by decide)
  have hRemainder : (y + 3) % 4 = 3 := by
    rw [← hy, hMax, Nat.pow_succ]
    omega
  have hShort : (Integer.ofNat (y + 3)).length ≤ maxLength + 1 :=
    Integer.length_ofNat_le (by rw [hy]; omega)
  have hLong : maxLength < (Integer.ofNat (y + 3)).length :=
    Integer.lt_length_ofNat (by decide) (by rw [hy]; omega)
  have hCheck := Rsa.check_small hRemainder
  have hInverse : Rsa.Numbers.qinv? ⟨15, 3, y + 3, 3, 5⟩ = some 2 := by
    show Modular.inverse? 5 3 = some 2
    decide +kernel
  have hPair : RsaPair.ofNumbers? ⟨15, 3, y + 3, 3, 5⟩ = some ⟨Integer.ofNat 15, Integer.ofNat 3,
      Integer.ofNat (y + 3), Integer.ofNat 2, Integer.ofNat 3, Integer.ofNat 5⟩ := by
    rw [RsaPair.ofNumbers?, hInverse]
    rfl
  have hSmall {n : Nat} (hn : n ≤ 15) : (Integer.ofNat n).length ≤ maxLength + 1 :=
    (Integer.length_ofNat_mono hn).trans (by decide)
  have hNumbers : Rsa.Numbers.Fits ⟨15, 3, y + 3, 3, 5⟩ (maxLength + 1) :=
    ⟨hSmall (by simp), hSmall (by simp), hShort, hSmall (by simp), hSmall (by simp)⟩
  have hLt : 2 < 3 := by decide
  obtain ⟨x, hConvert, -⟩ := exists_convert_pkcs1 hCheck hInverse hLt hNumbers (by decide)
  have hLoad := load_pkcs1_write hCheck hPair hLt hNumbers (by decide) none
  obtain ⟨i, hInfo, hLengths, rfl, -⟩ :=
    (convert_clear_eq_ok_iff ⟨rfl, rfl, rfl⟩ hLoad).1 hConvert
  have hDerived : (KeyPair.rsa _).IsDerived := ⟨_, hCheck, hPair⟩
  refine ⟨_, hConvert, fun q source => PrivateKey.convert_of_load_error
    (PrivateKey.load_toContainer_of_not_fits hDerived ?_ hLengths q) rfl source⟩
  intro hFits
  exact absurd (RsaPair.Fits.d hFits) (not_le.2 hLong)

end SshKeys
