import SshKeys.Buffer
import SshKeys.Proofs.Steps

/-!
# Buffers that stay where they are

The room of a buffer is computed before anything is written to it.  What is
written does not come from the room (`Buffer.written_writeAll`), so a room that is
too small shows in no output; but then the buffer moves.

* `Buffer.writeAll_eq`: **a buffer with enough room never moves**.
* `Buffer.Exact`: with exactly the room for what is written to it, in whichever
  pieces, a buffer ends as `Buffer.full` of that.
-/

namespace SshKeys

namespace Buffer

variable {α : Type}

/-- What was written does not come from the room. -/
theorem written_append (b : Buffer α) (piece : List α) :
    (b.append piece).written = b.written ++ piece := by
  rw [append]
  split
  · exact Array.toList_appendList
  · exact Array.toList_appendList

theorem written_foldl_append (b : Buffer α) (pieces : List (List α)) :
    (pieces.foldl append b).written = b.written ++ pieces.flatten := by
  induction pieces generalizing b with
  | nil => rw [List.foldl_nil, List.flatten_nil, List.append_nil]
  | cons piece pieces ih =>
    rw [List.foldl_cons, ih, written_append, List.flatten_cons, List.append_assoc]

theorem written_writeAll (n : Nat) (pieces : List (List α)) :
    (writeAll n pieces).written = pieces.flatten :=
  written_foldl_append (reserve n) pieces

/-- One piece that fits only makes the content longer. -/
theorem append_of_le {b : Buffer α} {piece : List α}
    (h : b.content.size + piece.length ≤ b.room) :
    b.append piece = { b with content := b.content ++ piece } :=
  if_pos h

theorem foldl_append_of_le {b : Buffer α} {pieces : List (List α)}
    (h : b.content.size + pieces.flatten.length ≤ b.room) :
    pieces.foldl append b = { b with content := b.content ++ pieces.flatten } := by
  induction pieces generalizing b with
  | nil => rw [List.foldl_nil, List.flatten_nil, Array.appendList_nil]
  | cons piece pieces ih =>
    rw [List.flatten_cons, List.length_append] at h
    have hFirst : b.content.size + piece.length ≤ b.room := by omega
    have hSize : (b.content ++ piece).size = b.content.size + piece.length := by
      rw [← Array.length_toList, Array.toList_appendList, List.length_append, Array.length_toList]
    have hSame : b.content ++ piece ++ pieces.flatten = b.content ++ (piece ++ pieces.flatten) := by
      rw [← Array.toList_inj]
      simp only [Array.toList_appendList, List.append_assoc]
    have hOthers : (b.content ++ piece).size + pieces.flatten.length ≤ b.room := by omega
    rw [List.foldl_cons, append_of_le hFirst, ih hOthers, hSame, List.flatten_cons]

/-- **A buffer with room for all that is written to it stays where it is.** -/
theorem writeAll_eq {n : Nat} {pieces : List (List α)} (h : pieces.flatten.length ≤ n) :
    writeAll n pieces = ⟨n, pieces.flatten.toArray, []⟩ := by
  have hRoom : (reserve n : Buffer α).content.size + pieces.flatten.length ≤ n := by
    rw [reserve, Array.size_empty, Nat.zero_add]
    exact h
  rw [writeAll, foldl_append_of_le hRoom]
  exact congrArg (Buffer.mk n · []) (List.toArray_appendList [] _)

/-- With less room than a first piece and a second need together, the first stays behind. -/
example : (writeAll 3 [[1, 2], [3, 4]]).leftBehind = [#[1, 2]] := by decide

/-- A buffer that holds `l` and had room for nothing else, where it was from the start. -/
def full (l : List α) : Buffer α :=
  ⟨l.length, l.toArray, []⟩

theorem written_full (l : List α) : (full l).written = l := rfl

/-- `n` bytes of room are those that `written` takes, and writing it to them in any pieces leaves
no copy of any of it behind. -/
structure Exact (n : Nat) (written : List α) : Prop where
  length_eq : written.length = n
  writeAll_eq : ∀ pieces : List (List α), pieces.flatten = written →
    writeAll n pieces = ⟨n, written.toArray, []⟩

theorem exact_of_length {n : Nat} {written : List α} (h : written.length = n) :
    Exact n written := by
  refine ⟨h, fun pieces hPieces => ?_⟩
  rw [writeAll_eq (by rw [hPieces]; exact Nat.le_of_eq h), hPieces]

/-- Pieces as long as they were said to be fill the buffer that was made for them. -/
theorem writeAll_eq_full {n : Nat} {pieces : List (List α)} {l : List α} (h : l.length = n)
    (hPieces : pieces.flatten = l) : writeAll n pieces = full l := by
  rw [(exact_of_length h).writeAll_eq pieces hPieces, full, h]

end Buffer

theorem Field.checkLength_eq_ok_iff {n : Nat} : checkLength n = .ok () ↔ n < lengthLimit := by
  rw [checkLength]
  split
  · next h => exact iff_of_false (fun hEq => nomatch hEq) (Nat.not_lt.2 h)
  · next h => exact iff_of_true rfl (Nat.not_le.1 h)

end SshKeys
