import DistributedCompute.Jobs
import Mathlib.Data.List.SplitLengths

/-! `partition` as a cut of the data at given lengths: the loop equals
`splitLengths` on the list of its chunk sizes, and what holds of the chunks is
read off the sizes. -/
namespace DistributedCompute
open Py

/-- The sizes of the chunks: the first `remainder` of them take one element more. -/
def chunkSizes (count chunkSize remainder : Nat) : List Nat :=
  (List.range count).map (fun i => chunkSize + if i < remainder then 1 else 0)

theorem chunkSizes_succ (count chunkSize remainder : Nat) : chunkSizes (count + 1) chunkSize remainder =
    chunkSizes count chunkSize remainder ++ [chunkSize + if count < remainder then 1 else 0] := by
  simp [chunkSizes, List.range_succ]

theorem sum_chunkSizes (count chunkSize remainder : Nat) :
    (chunkSizes count chunkSize remainder).sum = count * chunkSize + min count remainder := by
  induction count with
  | zero => simp [chunkSizes]
  | succ count ih =>
    rw [chunkSizes_succ, List.sum_append, ih, List.sum_singleton, Nat.succ_mul]
    split <;> omega

theorem mem_chunkSizes {count chunkSize remainder size : Nat} (member : size ∈ chunkSizes count chunkSize remainder) :
    chunkSize ≤ size ∧ size ≤ chunkSize + 1 := by
  obtain ⟨i, -, rfl⟩ := List.mem_map.mp member
  split <;> omega

theorem chunkSizes_descending (count chunkSize remainder : Nat) :
    (chunkSizes count chunkSize remainder).Pairwise (· ≥ ·) := by
  refine List.pairwise_map.mpr (List.pairwise_lt_range.imp ?_)
  intro i j before
  split <;> split <;> omega

theorem splitLengths_concat {α : Type} (sizes : List Nat) (size : Nat) (data : List α) :
    (sizes ++ [size]).splitLengths data = sizes.splitLengths data ++ [(data.drop sizes.sum).take size] := by
  induction sizes generalizing data with
  | nil => simp
  | cons first rest ih =>
    rw [List.cons_append, List.splitLengths_cons, List.splitLengths_cons, ih, List.drop_drop, List.sum_cons]
    rfl

/-- The turns of the loop in `partition`: the chunks so far, and where the last one ends. -/
theorem foldl_nextChunk {α : Type} (data : List α) (chunkSize remainder count : Nat) :
    (List.range count).foldl (nextChunk data chunkSize remainder) ([], 0) =
      ((chunkSizes count chunkSize remainder).splitLengths data, (chunkSizes count chunkSize remainder).sum) := by
  induction count with
  | zero => rfl
  | succ count ih =>
    rw [List.range_succ, List.foldl_append, ih, chunkSizes_succ, splitLengths_concat, List.sum_append,
      List.sum_singleton]
    rfl

/-- The sizes `partition` cuts `length` elements into. -/
def partitionSizes (length count : Nat) : List Nat := chunkSizes count (length / count) (length % count)

theorem sum_partitionSizes {length count : Nat} (some : 0 < length → 0 < count) :
    (partitionSizes length count).sum = length := by
  rw [partitionSizes, sum_chunkSizes]
  by_cases positive : 0 < count
  · have rest := Nat.mod_lt length positive
    rw [Nat.min_eq_right (Nat.le_of_lt rest), Nat.div_add_mod]
  · have empty : length = 0 := by omega
    have none : count = 0 := by omega
    simp [empty, none]

theorem pos_of_mem_partitionSizes {length count size : Nat} (fits : count ≤ length)
    (member : size ∈ partitionSizes length count) : 0 < size := by
  have positive : 0 < count := by
    obtain ⟨i, inside, -⟩ := List.mem_map.mp member
    exact Nat.zero_lt_of_lt (List.mem_range.mp inside)
  exact Nat.lt_of_lt_of_le (Nat.div_pos fits positive) (mem_chunkSizes member).1

section Partition
variable {α : Type} {data : List α} {numPartitions : Int}

theorem partition_eq (positive : 1 ≤ numPartitions) : partition data numPartitions =
    .ok ((partitionSizes data.length (min numPartitions.toNat data.length)).splitLengths data) := by
  unfold partition
  rw [if_neg (by omega)]
  split
  · rename_i empty
    rw [List.isEmpty_iff.mp empty]
    simp [partitionSizes, chunkSizes]
  · simp only [foldl_nextChunk]
    rfl

theorem partition_sizes (positive : 1 ≤ numPartitions) :
    (partitionSizes data.length (min numPartitions.toNat data.length)).sum = data.length :=
  sum_partitionSizes (by omega)

/-- The chunks are what the data is made of, in order. -/
theorem partition_flatten (positive : 1 ≤ numPartitions) :
    ∃ chunks, partition data numPartitions = .ok chunks ∧ chunks.flatten = data :=
  ⟨_, partition_eq positive, List.flatten_splitLengths _ _ (partition_sizes positive).ge⟩

theorem lengths_of_partition (positive : 1 ≤ numPartitions) {chunks : List (List α)}
    (cut : partition data numPartitions = .ok chunks) :
    chunks.map List.length = partitionSizes data.length (min numPartitions.toNat data.length) := by
  rw [partition_eq positive] at cut
  rw [← Except.ok.inj cut]
  exact List.map_splitLengths_length _ _ (partition_sizes positive).le

/-- No chunk is empty. -/
theorem partition_ne_nil {chunks : List (List α)} (cut : partition data numPartitions = .ok chunks) :
    ∀ chunk ∈ chunks, chunk ≠ [] := by
  intro chunk member
  by_cases positive : 1 ≤ numPartitions
  · have sized : chunk.length ∈ chunks.map List.length := List.mem_map_of_mem member
    rw [lengths_of_partition positive cut] at sized
    exact List.ne_nil_of_length_pos (pos_of_mem_partitionSizes (Nat.min_le_right _ _) sized)
  · rw [partition, if_pos (by omega)] at cut
    cases cut

end Partition

/-- As many chunks as asked for, or one for each element when there are fewer:
none is empty, together they are the data, the longer ones come first, and no
two differ by more than one element. -/
theorem partition_balanced {α : Type} (data : List α) {numPartitions : Int} (positive : 1 ≤ numPartitions) :
    ∃ chunks, partition data numPartitions = .ok chunks ∧
      chunks.length = min numPartitions.toNat data.length ∧
      (∀ chunk ∈ chunks, chunk ≠ []) ∧
      chunks.flatten = data ∧
      (chunks.map List.length).Pairwise (· ≥ ·) ∧
      ∀ chunk ∈ chunks, ∀ other ∈ chunks, chunk.length ≤ other.length + 1 := by
  obtain ⟨chunks, cut, flat⟩ : ∃ chunks, partition data numPartitions = .ok chunks ∧ chunks.flatten = data :=
    partition_flatten positive
  have lengths := lengths_of_partition positive cut
  have sized (chunk : List α) (member : chunk ∈ chunks) :=
    mem_chunkSizes (lengths ▸ List.mem_map_of_mem (f := List.length) member)
  refine ⟨chunks, cut, ?_, partition_ne_nil cut, flat, ?_, ?_⟩
  · have counted := congrArg List.length lengths
    simpa [partitionSizes, chunkSizes] using counted
  · rw [lengths]
    exact chunkSizes_descending _ _ _
  · intro chunk member other member'
    have large := (sized chunk member).2
    have small := (sized other member').1
    omega

theorem sevenInThree : ∃ chunks, partition [1, 2, 3, 4, 5, 6, 7] 3 = .ok chunks ∧
    chunks = [[1, 2, 3], [4, 5], [6, 7]] ∧ chunks.length = min 3 7 := by
  obtain ⟨chunks, cut, counted, -⟩ := partition_balanced [1, 2, 3, 4, 5, 6, 7] (show 1 ≤ (3 : Int) by decide)
  refine ⟨chunks, cut, ?_, counted⟩
  have given : partition [1, 2, 3, 4, 5, 6, 7] 3 = .ok [[1, 2, 3], [4, 5], [6, 7]] := by rfl
  exact Except.ok.inj (cut.symm.trans given)

end DistributedCompute
