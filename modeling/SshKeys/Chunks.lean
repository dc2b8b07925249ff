/-!
# Cutting a list into pieces

`chunks n l` cuts `l` into pieces of `n` elements; only the last one may be
shorter, and joining the pieces gives the list back.  `chunks_eq_map_range` says
what each piece is; the lengths of the pieces follow from it.
-/

namespace SshKeys

variable {α : Type}

/-- The pieces of `l` of length `n`; there are none for the empty list or for `n = 0`. -/
def chunks (n : Nat) (l : List α) : List (List α) :=
  if n = 0 ∨ l.length = 0 then [] else l.take n :: chunks n (l.drop n)
termination_by l.length
decreasing_by
  simp only [List.length_drop]
  omega

@[simp] theorem chunks_nil (n : Nat) : chunks n ([] : List α) = [] := by
  rw [chunks]
  simp

theorem flatten_chunks (n : Nat) (hn : 0 < n) (l : List α) : (chunks n l).flatten = l := by
  induction hk : l.length using Nat.strongRecOn generalizing l with
  | _ k ih =>
    rw [chunks]
    split
    · next h =>
      have : l = [] := List.length_eq_zero_iff.1 (by omega)
      simp [this]
    · next h =>
      rw [List.flatten_cons, ih (l.drop n).length (by simp; omega) _ rfl, List.take_append_drop]

theorem chunks_map {β : Type} (n : Nat) (f : α → β) (l : List α) :
    chunks n (l.map f) = (chunks n l).map (List.map f) := by
  induction hk : l.length using Nat.strongRecOn generalizing l with
  | _ k ih =>
    rw [chunks, chunks.eq_def n l, List.length_map]
    split
    · rfl
    · next h =>
      rw [List.map_cons, ← List.map_take, ← List.map_drop,
        ih (l.drop n).length (by rw [List.length_drop]; omega) _ rfl]

/-- The pieces one by one: there are as many as it takes, and each starts where the ones before it
end. -/
theorem chunks_eq_map_range {n : Nat} (hn : 0 < n) (l : List α) :
    chunks n l = (List.range ((l.length + n - 1) / n)).map fun i => (l.drop (n * i)).take n := by
  induction hk : l.length using Nat.strongRecOn generalizing l with
  | _ k ih =>
    subst hk
    rw [chunks]
    split
    · next h =>
      have hNil : l.length = 0 := by omega
      rw [hNil, Nat.zero_add, Nat.div_eq_of_lt (by omega)]
      rfl
    · next h =>
      have hCount : (l.length + n - 1) / n = ((l.drop n).length + n - 1) / n + 1 := by
        rw [List.length_drop]
        by_cases hLong : n ≤ l.length
        · rw [show l.length + n - 1 = l.length - n + n - 1 + n by omega, Nat.add_div_right _ hn]
        · rw [show l.length + n - 1 = l.length - 1 + n by omega, Nat.add_div_right _ hn,
            Nat.div_eq_of_lt (by omega), Nat.div_eq_of_lt (by omega)]
      rw [ih _ (by rw [List.length_drop]; omega) _ rfl, hCount, List.range_succ_eq_map,
        List.map_cons, List.map_map]
      congr 1
      refine List.map_congr_left fun i _ => ?_
      rw [Function.comp_apply, List.drop_drop, Nat.mul_succ, Nat.add_comm]

theorem length_le_of_mem_chunks {n : Nat} (hn : 0 < n) {l piece : List α}
    (h : piece ∈ chunks n l) : piece.length ≤ n := by
  rw [chunks_eq_map_range hn] at h
  obtain ⟨i, -, rfl⟩ := List.mem_map.1 h
  exact List.length_take_le ..

theorem ne_nil_of_mem_chunks {n : Nat} (hn : 0 < n) {l piece : List α} (h : piece ∈ chunks n l) :
    piece ≠ [] := by
  rw [chunks_eq_map_range hn] at h
  obtain ⟨i, hi, rfl⟩ := List.mem_map.1 h
  have hStart : (i + 1) * n ≤ l.length + n - 1 :=
    (Nat.le_div_iff_mul_le hn).1 (List.mem_range.1 hi)
  rw [Nat.add_mul, Nat.mul_comm i n] at hStart
  refine List.ne_nil_of_length_pos ?_
  rw [List.length_take, List.length_drop]
  omega

/-- All pieces are full but the last one. -/
theorem length_of_mem_dropLast_chunks {n : Nat} (hn : 0 < n) {l piece : List α}
    (h : piece ∈ (chunks n l).dropLast) : piece.length = n := by
  rw [chunks_eq_map_range hn, ← List.map_dropLast, List.dropLast_eq_take, List.take_range,
    List.length_range] at h
  obtain ⟨i, hi, rfl⟩ := List.mem_map.1 h
  have hNext : i + 2 ≤ (l.length + n - 1) / n := by
    have hLess := List.mem_range.1 hi
    omega
  have hEnd : (i + 2) * n ≤ l.length + n - 1 := (Nat.le_div_iff_mul_le hn).1 hNext
  rw [Nat.add_mul, Nat.mul_comm i n] at hEnd
  rw [List.length_take, List.length_drop]
  omega

end SshKeys
