import Mathlib.Data.Nat.ModEq
import SshKeys.Container.Section
import SshKeys.Proofs.Buffer
import SshKeys.Proofs.Header
import SshKeys.Proofs.KeyMaterial

/-!
# The private section read back

`parse_eq_ok_iff`: **a plaintext is accepted exactly when it is a check number
written twice, the bytes a key pair is read from, a comment, and less than a
block of bytes counting up from one**, and the public key of the pair is the one
in the clear.  How many bytes count up follows from the rest
(`eq_paddingLength`).
-/

namespace SshKeys.Section

@[simp] theorem length_padding (n : Nat) : (padding n).length = n := by
  simp [padding]

theorem length_content (check : UInt32) (pair : Bytes) (comment : String) :
    (content check pair comment).length =
      8 + pair.length + Field.stringLength comment.utf8ByteSize := by
  simp only [content, List.length_append, Bytes.length_be32, Field.length_putText]

theorem length_build (check : UInt32) (pair : Bytes) (comment : String) (block : Nat) :
    (build check pair comment block).length = length pair.length comment.utf8ByteSize block := by
  rw [build, List.length_append, length_padding, length_content, length]

/-- What is written is the plaintext, in a buffer with room for nothing else. -/
theorem write_eq {memory : Allocator} {check : UInt32} {pair : Bytes} {comment : String}
    {block : Nat} : write memory check pair comment block =
      (do
        memory.ask "private section" (length pair.length comment.utf8ByteSize block)
        Field.checkLength comment.utf8ByteSize
        .ok (.full (build check pair comment block))) := by
  have hPieces : [Bytes.be32 check, Bytes.be32 check, pair, Field.putText comment,
      padding (paddingLength (8 + pair.length + Field.stringLength comment.utf8ByteSize)
        block)].flatten = build check pair comment block := by
    rw [← length_content check]
    simp only [List.flatten_cons, List.flatten_nil, List.append_nil, build, content,
      List.append_assoc]
  rw [write, Buffer.writeAll_eq_full (length_build ..) hPieces]
  rfl

theorem write_of_lt {comment : String} (hComment : comment.utf8ByteSize < Field.lengthLimit)
    (memory : Allocator) (check : UInt32) (pair : Bytes) (block : Nat) :
    write memory check pair comment block =
      (do
        memory.ask "private section" (length pair.length comment.utf8ByteSize block)
        .ok (.full (build check pair comment block))) := by
  rw [write_eq, Field.checkLength_eq_ok_iff.2 hComment]
  rfl

theorem eq_full_of_write {memory : Allocator} {check : UInt32} {pair : Bytes} {comment : String}
    {block : Nat} {b : Buffer UInt8} (h : write memory check pair comment block = .ok b) :
    b = .full (build check pair comment block) := by
  rw [write_eq] at h
  obtain ⟨_, -, h⟩ := Result.bind_eq_ok_iff.1 h
  obtain ⟨_, -, h⟩ := Result.bind_eq_ok_iff.1 h
  exact (Except.ok.inj h).symm

theorem paddingLength_lt {block : Nat} (h : 0 < block) (n : Nat) : paddingLength n block < block :=
  Nat.mod_lt _ h

theorem mod_add_paddingLength {block : Nat} (h : 0 < block) (n : Nat) :
    (n + paddingLength n block) % block = 0 := by
  have hLt := Nat.mod_lt n h
  have hSplit := Nat.div_add_mod n block
  rw [paddingLength]
  by_cases hZero : n % block = 0
  · rw [hZero, Nat.sub_zero, Nat.mod_self, Nat.add_zero, hZero]
  · rw [Nat.mod_eq_of_lt (a := block - n % block) (by omega)]
    have hEq : n + (block - n % block) = block * (n / block + 1) := by
      rw [Nat.mul_add, Nat.mul_one]
      omega
    rw [hEq, Nat.mul_mod_right]

/-- Less than a block fills a length up to whole blocks in one way only. -/
theorem eq_paddingLength {n k block : Nat} (hk : k < block) (h : (n + k) % block = 0) :
    k = paddingLength n block := by
  have hBlock : 0 < block := by omega
  have hLt := paddingLength_lt hBlock n
  have hOther := mod_add_paddingLength hBlock n
  have hMod : k % block = paddingLength n block % block := by
    exact Nat.ModEq.add_left_cancel' n (h.trans hOther.symm)
  rwa [Nat.mod_eq_of_lt hk, Nat.mod_eq_of_lt hLt] at hMod

/-- `plain` holds the key pair and the comment: the pair is read from `kb`, and `k` bytes fill the
section up. -/
structure Holds (plain : Bytes) (block : Nat) (pair : KeyPair) (comment : String) (check : UInt32)
    (kb : Bytes) (k : Nat) : Prop where
  plain_eq : plain = content check kb comment ++ padding k
  pair_eq : KeyPair.read kb = .ok (pair, [])
  comment_lt : comment.utf8ByteSize < 2 ^ 32
  padding_lt : k < block

/-- What is built holds what it is built from. -/
theorem holds_build {pair : KeyPair} (hPair : pair.Valid) (check : UInt32) {comment : String}
    (hComment : comment.utf8ByteSize < 2 ^ 32) {block : Nat} (hBlock : 0 < block) :
    Holds (build check pair.blob comment block) block pair comment check pair.blob
      (paddingLength (content check pair.blob comment).length block) :=
  ⟨rfl, KeyPair.read_blob_self hPair, hComment, paddingLength_lt hBlock _⟩

variable {h : ContainerHeader} {profile : CipherProfile} {plain : Bytes} {pair : KeyPair}
  {comment : String}

/-- Of a plaintext that is accepted, each byte is accounted for. -/
theorem exists_holds_of_parse (hParse : (parse h profile plain).1 = .ok ⟨pair, comment⟩) :
    h.publicKey = .ok pair.publicKey ∧
      ∃ check kb k, Holds plain profile.blockSize pair comment check kb k := by
  obtain ⟨rest, hParse⟩ : ∃ rest, parse h profile plain = (.ok ⟨pair, comment⟩, rest) :=
    ⟨_, Prod.ext hParse rfl⟩
  obtain ⟨first, t₁, h₁, hParse⟩ := ExceptState.bind_eq_ok_iff.1 hParse
  obtain ⟨second, t₂, h₂, hParse⟩ := ExceptState.bind_eq_ok_iff.1 hParse
  obtain ⟨hCheck, hParse⟩ := ExceptState.refuse_eq_ok_iff.1 hParse
  obtain ⟨t₃, t₃', h₃, hParse⟩ := ExceptState.bind_eq_ok_iff.1 hParse
  cases h₃
  cases hRead : KeyPair.read t₂ with
  | error f =>
    rw [hRead] at hParse
    cases hParse
  | ok p =>
    obtain ⟨pair', t₄⟩ := p
    rw [hRead] at hParse
    obtain ⟨_, t₄', h₄, hParse⟩ := ExceptState.bind_eq_ok_iff.1 hParse
    cases h₄
    obtain ⟨key, t₅, h₅, hParse⟩ := ExceptState.bind_eq_ok_iff.1 hParse
    obtain ⟨hKey, hParse⟩ := ExceptState.refuse_eq_ok_iff.1 hParse
    obtain ⟨comment', t₆, h₆, hParse⟩ := ExceptState.bind_eq_ok_iff.1 hParse
    obtain ⟨t₇, t₇', h₇, hParse⟩ := ExceptState.bind_eq_ok_iff.1 hParse
    cases h₇
    obtain ⟨hPadding, hParse⟩ := ExceptState.refuse_eq_ok_iff.1 hParse
    cases hParse
    rw [ContainerHeader.field_eq_ok_iff, Field.word_eq_ok_iff] at h₁ h₂
    rw [ExceptState.lift_eq_ok_iff] at h₅
    rw [ContainerHeader.field_eq_ok_iff, Field.text_eq_ok_iff] at h₆
    obtain ⟨kb, hSplit, hPair⟩ := KeyPair.read_eq_ok_iff.1 hRead
    rw [not_or, not_le, not_not] at hPadding
    refine ⟨by rw [h₅.1, not_not.1 hKey], first, kb, _, ?_, hPair, h₆.2, hPadding.1⟩
    rw [h₁, h₂, hSplit, ← h₅.2, h₆.1, ← hPadding.2, not_not.1 hCheck, content]
    simp only [List.append_assoc]

theorem Holds.parse_eq {check : UInt32} {kb : Bytes} {k : Nat}
    (hHolds : Holds plain profile.blockSize pair comment check kb k)
    (hKey : h.publicKey = .ok pair.publicKey) :
    parse h profile plain = (.ok ⟨pair, comment⟩, padding k) := by
  have hSplit : plain = Bytes.be32 check ++ (Bytes.be32 check ++ (kb ++
      (Field.putText comment ++ padding k))) := by
    rw [hHolds.plain_eq, content]
    simp only [List.append_assoc]
  have hRead := KeyPair.read_eq_ok_iff.2
    ⟨kb, (rfl : kb ++ (Field.putText comment ++ padding k) = _), hHolds.pair_eq⟩
  refine ExceptState.bind_eq_ok_iff.2 ⟨check, _, ContainerHeader.field_eq_ok_iff.2
    (Field.word_eq_ok_iff.2 hSplit), ?_⟩
  refine ExceptState.bind_eq_ok_iff.2 ⟨check, _, ContainerHeader.field_eq_ok_iff.2
    (Field.word_eq_ok_iff.2 rfl), ?_⟩
  refine ExceptState.refuse_eq_ok_iff.2 ⟨not_not.2 rfl, ?_⟩
  refine ExceptState.bind_eq_ok_iff.2 ⟨_, _, rfl, ?_⟩
  rw [hRead]
  refine ExceptState.bind_eq_ok_iff.2 ⟨_, _, rfl, ?_⟩
  refine ExceptState.bind_eq_ok_iff.2 ⟨pair.publicKey, _,
    ExceptState.lift_eq_ok_iff.2 ⟨hKey, rfl⟩, ?_⟩
  refine ExceptState.refuse_eq_ok_iff.2 ⟨not_not.2 rfl, ?_⟩
  refine ExceptState.bind_eq_ok_iff.2 ⟨comment, padding k, ContainerHeader.field_eq_ok_iff.2
    (Field.text_eq_ok_iff.2 ⟨rfl, hHolds.comment_lt⟩), ?_⟩
  refine ExceptState.bind_eq_ok_iff.2 ⟨_, _, rfl, ?_⟩
  refine ExceptState.refuse_eq_ok_iff.2 ⟨?_, rfl⟩
  rw [length_padding, not_or, not_le, not_not]
  exact ⟨hHolds.padding_lt, rfl⟩

/-- A key pair that is refused is reported before what stands behind it. -/
theorem parse_of_read_error {rest : Bytes} {f : KeyFault} (hRead : KeyPair.read rest = .error f)
    (check : UInt32) :
    (parse h profile (Bytes.be32 check ++ (Bytes.be32 check ++ rest))).1 =
      .error (.malformedContainer (.keyPair f)) := by
  have hWord (tail : Bytes) :
      ContainerHeader.field Field.word (Bytes.be32 check ++ tail) = (.ok check, tail) :=
    ContainerHeader.field_eq_ok_iff.2 (Field.word_eq_ok_iff.2 rfl)
  rw [parse, ExceptState.bind_of_ok (hWord _), ExceptState.bind_of_ok (hWord _),
    ExceptState.refuse_of_not (not_not.2 rfl)]
  refine (congrArg Prod.fst (ExceptState.bind_of_ok rfl)).trans ?_
  rw [hRead]
  rfl

theorem parse_eq_ok_iff :
    (parse h profile plain).1 = .ok ⟨pair, comment⟩ ↔ h.publicKey = .ok pair.publicKey ∧
      ∃ check kb k, Holds plain profile.blockSize pair comment check kb k := by
  refine ⟨exists_holds_of_parse, ?_⟩
  rintro ⟨hKey, check, kb, k, hHolds⟩
  rw [hHolds.parse_eq hKey]

end SshKeys.Section
