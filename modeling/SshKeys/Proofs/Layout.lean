import SshKeys.Proofs.Armor
import SshKeys.Proofs.Header

/-!
# The layout of a payload

A payload is the magic, three strings, the number of keys, two strings and the
bytes behind them.  `Layout` names these parts as bytes, before anything is read
into them, and `Layout.Describes` says which header they stand for.

* `Layout.payload_injective`: **no payload has two layouts**.
* `parse_eq_ok_iff_layout`: a text is read as a header exactly when its payload has
  a layout that describes the header, and the header gives the payload back.
-/

namespace SshKeys.ContainerHeader

/-- The parts of a payload. -/
structure Layout where
  cipherName : Bytes
  kdfName : Bytes
  options : Bytes
  publicBlob : Bytes
  privateSection : Bytes
  tag : Bytes
  deriving DecidableEq

/-- The options of bcrypt, within the bounds set for untrusted files. -/
def BcryptOptions (options salt : Bytes) (rounds : UInt32) : Prop :=
  options = Field.putString salt ++ Bytes.be32 rounds ∧
    (1 ≤ salt.length ∧ salt.length ≤ 64) ∧ 1 ≤ rounds.toNat ∧ rounds.toNat ≤ 1024

namespace Layout

def payload (l : Layout) : Bytes :=
  magic ++ Field.putString l.cipherName ++ Field.putString l.kdfName ++ Field.putString l.options
    ++ Bytes.be32 1 ++ Field.putString l.publicBlob ++ Field.putString l.privateSection ++ l.tag

/-- The lengths of the strings can be declared.  Nothing declares that of the tag. -/
structure Declarable (l : Layout) : Prop where
  cipherName_lt : l.cipherName.length < 2 ^ 32
  kdfName_lt : l.kdfName.length < 2 ^ 32
  options_lt : l.options.length < 2 ^ 32
  publicBlob_lt : l.publicBlob.length < 2 ^ 32
  privateSection_lt : l.privateSection.length < 2 ^ 32

/-- The header that the parts stand for. -/
structure Describes (l : Layout) (h : ContainerHeader) : Prop where
  cipherName : Bytes.toString? l.cipherName = some h.cipherName
  cipherName_ne : l.cipherName ≠ []
  kdfName : Bytes.toString? l.kdfName = some h.kdfName
  kdf : h.kdfName = "none" ∧ l.options = [] ∧ h.kdf = none ∨
    h.kdfName = "bcrypt" ∧ ∃ salt rounds,
      BcryptOptions l.options salt rounds ∧ h.kdf = some ⟨salt, rounds⟩
  publicBlob : l.publicBlob = h.publicBlob
  privateSection : l.privateSection = h.privateSection
  tag : l.tag = h.tag

variable {l l' : Layout} {h : ContainerHeader}

/-! ## One layout for a payload -/

theorem payload_injective (hl : l.Declarable) (hl' : l'.Declarable)
    (h : l.payload = l'.payload) : l = l' := by
  simp only [payload, List.append_assoc] at h
  have h := List.append_cancel_left h
  -- The strings are compared from the front; each comparison leaves what stands behind them.
  obtain ⟨hCipher, h⟩ := Field.putString_append_inj hl.cipherName_lt hl'.cipherName_lt h
  obtain ⟨hKdf, h⟩ := Field.putString_append_inj hl.kdfName_lt hl'.kdfName_lt h
  obtain ⟨hOptions, h⟩ := Field.putString_append_inj hl.options_lt hl'.options_lt h
  have h := List.append_cancel_left h
  obtain ⟨hBlob, h⟩ := Field.putString_append_inj hl.publicBlob_lt hl'.publicBlob_lt h
  obtain ⟨hSection, hTag⟩ := Field.putString_append_inj hl.privateSection_lt hl'.privateSection_lt h
  cases l
  cases l'
  exact Layout.mk.injEq .. ▸ ⟨hCipher, hKdf, hOptions, hBlob, hSection, hTag⟩

/-! ## Layouts and headers -/

theorem Describes.options_eq (hd : l.Describes h) : l.options = putOptions h.kdf := by
  rcases hd.kdf with ⟨-, hOptions, hKdf⟩ | ⟨-, salt, rounds, ⟨hOptions, -⟩, hKdf⟩
  · rw [hOptions, hKdf]
    rfl
  · rw [hOptions, hKdf]
    rfl

/-- **The header gives the payload back.** -/
theorem Describes.payload_eq (hd : l.Describes h) : l.payload = h.payload := by
  rw [payload, ContainerHeader.payload, Field.putText, Field.putText,
    Bytes.toString?_eq_some_iff.1 hd.cipherName, Bytes.toString?_eq_some_iff.1 hd.kdfName,
    hd.options_eq, hd.publicBlob, hd.privateSection, hd.tag]

theorem Describes.kdfValid (hd : l.Describes h) : KdfValid h.kdfName h.kdf := by
  rcases hd.kdf with ⟨hName, -, hKdf⟩ | ⟨hName, salt, rounds, ⟨-, hSalt, hRounds⟩, hKdf⟩
  · exact .inl ⟨hName, hKdf⟩
  · exact .inr ⟨hName, ⟨salt, rounds⟩, hKdf, hRounds, hSalt⟩

theorem Describes.valid (hd : l.Describes h) (hl : l.Declarable) : h.Valid where
  cipherName_ne := by
    intro hEmpty
    refine hd.cipherName_ne ?_
    rw [Bytes.toString?_eq_some_iff.1 hd.cipherName, hEmpty]
    exact Bytes.ofString_eq_nil_iff.2 rfl
  cipherName_lt := by
    rw [← Bytes.length_ofString, ← Bytes.toString?_eq_some_iff.1 hd.cipherName]
    exact hl.cipherName_lt
  kdf := hd.kdfValid
  publicBlob_lt := by
    rw [← hd.publicBlob]
    exact hl.publicBlob_lt
  privateSection_lt := by
    rw [← hd.privateSection]
    exact hl.privateSection_lt

end Layout

/-- The parts a header is written in. -/
def layout (h : ContainerHeader) : Layout where
  cipherName := Bytes.ofString h.cipherName
  kdfName := Bytes.ofString h.kdfName
  options := putOptions h.kdf
  publicBlob := h.publicBlob
  privateSection := h.privateSection
  tag := h.tag

variable {h : ContainerHeader}

theorem Valid.declarable_layout (hv : h.Valid) : h.layout.Declarable where
  cipherName_lt := by
    rw [layout, Bytes.length_ofString]
    exact hv.cipherName_lt
  kdfName_lt := by
    rw [layout, Bytes.length_ofString]
    exact hv.kdf.name_lt
  options_lt := hv.kdf.options_lt
  publicBlob_lt := hv.publicBlob_lt
  privateSection_lt := hv.privateSection_lt

theorem Valid.describes_layout (hv : h.Valid) : h.layout.Describes h where
  cipherName := Bytes.toString?_ofString h.cipherName
  cipherName_ne := mt Bytes.ofString_eq_nil_iff.1 hv.cipherName_ne
  kdfName := Bytes.toString?_ofString h.kdfName
  kdf := by
    rcases hv.kdf with ⟨hName, hKdf⟩ | ⟨hName, k, hKdf, hRounds, hSalt⟩
    · refine .inl ⟨hName, ?_, hKdf⟩
      rw [layout, hKdf]
      rfl
    · refine .inr ⟨hName, k.salt, k.rounds, ⟨?_, hSalt, hRounds⟩, hKdf⟩
      rw [layout, hKdf]
      rfl
  publicBlob := rfl
  privateSection := rfl
  tag := rfl

/-! ## Texts -/

/-- A text is read as a header exactly when its payload is written from one that is valid. -/
theorem parse_eq_ok_iff {text : String} :
    parse text = .ok h ↔ Armor.unwrap text = .ok h.payload ∧ h.Valid := by
  rw [parse, Result.bind_eq_ok_iff]
  constructor
  · rintro ⟨payload, hUnwrap, hRead⟩
    obtain ⟨rfl, hv⟩ := ofPayload_eq_ok_iff.1 hRead
    exact ⟨hUnwrap, hv⟩
  · rintro ⟨hUnwrap, hv⟩
    exact ⟨h.payload, hUnwrap, ofPayload_eq_ok_iff.2 ⟨rfl, hv⟩⟩

theorem parse_of_describes {text : String} {l : Layout}
    (hUnwrap : Armor.unwrap text = .ok l.payload) (hl : l.Declarable) (hd : l.Describes h) :
    parse text = .ok h := by
  rw [hd.payload_eq] at hUnwrap
  exact parse_eq_ok_iff.2 ⟨hUnwrap, hd.valid hl⟩

theorem exists_describes_of_parse {text : String} (hRead : parse text = .ok h) :
    ∃ l : Layout, Armor.unwrap text = .ok l.payload ∧ l.Declarable ∧ l.Describes h := by
  obtain ⟨hUnwrap, hv⟩ := parse_eq_ok_iff.1 hRead
  refine ⟨h.layout, ?_, hv.declarable_layout, hv.describes_layout⟩
  rw [hUnwrap, hv.describes_layout.payload_eq]

/-- **Reading a header accepts exactly the layout and loses nothing**: the text is read as `h`
if and only if its payload has a layout that describes `h`, whichever layout is looked at, and
then the payload is the one `h` is written as. -/
theorem parse_eq_ok_iff_layout (text : String) (h : ContainerHeader) :
    (parse text = .ok h ↔
      ∃ l : Layout, Armor.unwrap text = .ok l.payload ∧ l.Declarable ∧ l.Describes h) ∧
    (∀ l : Layout, Armor.unwrap text = .ok l.payload → l.Declarable →
      (parse text = .ok h ↔ l.Describes h)) ∧
    (parse text = .ok h → Armor.unwrap text = .ok h.payload) := by
  refine ⟨⟨exists_describes_of_parse, ?_⟩, ?_, fun hRead => (parse_eq_ok_iff.1 hRead).1⟩
  · rintro ⟨l, hUnwrap, hl, hd⟩
    exact parse_of_describes hUnwrap hl hd
  · intro l hUnwrap hl
    refine ⟨fun hRead => ?_, parse_of_describes hUnwrap hl⟩
    obtain ⟨l', hUnwrap', hl', hd⟩ := exists_describes_of_parse hRead
    have hPayload : l.payload = l'.payload := Except.ok.inj (hUnwrap.symm.trans hUnwrap')
    rwa [Layout.payload_injective hl hl' hPayload]

/-- A layout under a cipher named `x` with the most rounds, and one byte in each further part. -/
theorem parse_layout_bcrypt :
    let l : Layout := ⟨Bytes.ofString "x", Bytes.ofString "bcrypt",
      Field.putString [5] ++ Bytes.be32 1024, [1], [2], [3]⟩
    parse (Armor.wrap l.payload) = .ok ⟨"x", "bcrypt", some ⟨[5], 1024⟩, [1], [2], [3]⟩ := by
  intro l
  have hUnwrap : Armor.unwrap (Armor.wrap l.payload) = .ok l.payload :=
    Armor.unwrap_wrap (by decide +kernel)
  have hl : l.Declarable :=
    ⟨by decide +kernel, by decide +kernel, by decide, by decide, by decide⟩
  refine ((parse_eq_ok_iff_layout _ _).2.1 l hUnwrap hl).2 ?_
  exact ⟨Bytes.toString?_ofString "x", by decide +kernel, Bytes.toString?_ofString "bcrypt",
    .inr ⟨rfl, [5], 1024, ⟨rfl, by decide, by decide⟩, rfl⟩, rfl, rfl, rfl⟩

end SshKeys.ContainerHeader
