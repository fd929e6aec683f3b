import Mathlib.Data.List.Range
import Mathlib.Data.List.TakeDrop
import Mathlib.Tactic.Linarith

/-! Cutting a list into chunks of one size, the last of which may be shorter. -/
namespace Antarc.Library

def chunkCount (size length : Nat) : Nat :=
  (length + size - 1) / size

def chunks (size : Nat) (xs : List α) : List (List α) :=
  (List.range (chunkCount size xs.length)).map fun index => (xs.drop (index * size)).take size

@[simp] theorem length_chunks (size : Nat) (xs : List α) :
    (chunks size xs).length = chunkCount size xs.length := by
  simp [chunks]

theorem flatten_prefix (size : Nat) (xs : List α) (count : Nat) :
    ((List.range count).map fun index => (xs.drop (index * size)).take size).flatten =
      xs.take (count * size) := by
  induction count with
  | zero => simp
  | succ count ih =>
    rw [List.range_succ, List.map_append, List.flatten_append, ih, Nat.succ_mul, List.take_add]
    simp

theorem flatten_chunks {size : Nat} (hsize : 0 < size) (xs : List α) :
    (chunks size xs).flatten = xs := by
  rw [chunks, flatten_prefix, List.take_of_length_le]
  have h := Nat.lt_div_mul_add hsize (a := xs.length + size - 1)
  rw [chunkCount]
  omega

theorem chunk_ne_nil {size : Nat} (hsize : 0 < size) {xs chunk : List α}
    (h : chunk ∈ chunks size xs) : chunk ≠ [] := by
  obtain ⟨index, hindex, rfl⟩ := List.mem_map.mp h
  rw [List.mem_range, chunkCount] at hindex
  have hmul : (index + 1) * size ≤ xs.length + size - 1 :=
    (Nat.le_div_iff_mul_le hsize).mp hindex
  intro hnil
  have hlength := congrArg List.length hnil
  simp only [List.length_take, List.length_drop, List.length_nil] at hlength
  rw [Nat.succ_mul] at hmul
  omega

theorem length_chunk_le {size : Nat} {xs chunk : List α} (h : chunk ∈ chunks size xs) :
    chunk.length ≤ size := by
  obtain ⟨index, -, rfl⟩ := List.mem_map.mp h
  simp

theorem length_chunk_of_mem_dropLast {size : Nat} (hsize : 0 < size) {xs chunk : List α}
    (h : chunk ∈ (chunks size xs).dropLast) : chunk.length = size := by
  obtain ⟨index, hindex, rfl⟩ := List.mem_iff_getElem.mp h
  rw [List.length_dropLast, length_chunks, chunkCount] at hindex
  have hnext : (index + 2) * size ≤ xs.length + size - 1 :=
    (Nat.le_div_iff_mul_le hsize).mp (by omega)
  simp only [chunks, List.getElem_dropLast, List.getElem_map, List.getElem_range,
    List.length_take, List.length_drop]
  rw [Nat.add_mul] at hnext
  omega

end Antarc.Library
