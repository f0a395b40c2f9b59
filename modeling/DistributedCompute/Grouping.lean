import Mathlib.Data.List.Induction
import Mathlib.Algebra.BigOperators.Group.List.Lemmas
import Mathlib.Algebra.GroupWithZero.Nat
import DistributedCompute.Dict

/-! Grouping a list of key-value pairs by key: one dictionary entry for each key,
in the order in which the keys first occur, holding the values of the key in the
order in which they occur. -/
namespace Grouping
open Py
variable {κ ν : Type*} [DecidableEq κ]

/-- The values paired with `k`, in order. -/
def valuesOf (k : κ) (pairs : List (κ × ν)) : List ν :=
  pairs.filterMap (fun pair => if pair.1 = k then some pair.2 else none)

/-- Append a value to the list under its key, which is empty if the key is new. -/
def push (groups : Dict κ (List ν)) (pair : κ × ν) : Dict κ (List ν) :=
  groups.insert pair.1 ((groups.get? pair.1).getD [] ++ [pair.2])

def group (pairs : List (κ × ν)) : Dict κ (List ν) := pairs.foldl push ∅

theorem group_concat (pairs : List (κ × ν)) (pair : κ × ν) :
    group (pairs ++ [pair]) = push (group pairs) pair := by
  rw [group, List.foldl_append]
  rfl

theorem valuesOf_concat (k : κ) (pairs : List (κ × ν)) (pair : κ × ν) :
    valuesOf k (pairs ++ [pair]) = valuesOf k pairs ++ (if pair.1 = k then [pair.2] else []) := by
  rw [valuesOf, List.filterMap_append]
  by_cases same : pair.1 = k <;> simp [valuesOf, same]

theorem valuesOf_eq_nil {k : κ} {pairs : List (κ × ν)} : valuesOf k pairs = [] ↔ k ∉ pairs.map Prod.fst := by
  rw [valuesOf, List.filterMap_eq_nil_iff, List.mem_map, not_exists]
  refine forall_congr' fun pair => ?_
  by_cases same : pair.1 = k <;> simp [same]

theorem length_valuesOf (k : κ) (pairs : List (κ × ν)) :
    (valuesOf k pairs).length = (pairs.map Prod.fst).count k := by
  induction pairs with
  | nil => rfl
  | cons pair rest ih =>
    rw [List.map_cons, List.count_cons, ← ih]
    by_cases same : pair.1 = k <;> simp [valuesOf, same]

theorem get?_push (groups : Dict κ (List ν)) (pair : κ × ν) (k : κ) :
    (push groups pair).get? k =
      if k = pair.1 then some ((groups.get? pair.1).getD [] ++ [pair.2]) else groups.get? k :=
  Dict.get?_insert groups pair.1 k _

theorem get?_group (pairs : List (κ × ν)) (k : κ) :
    (group pairs).get? k = if k ∈ pairs.map Prod.fst then some (valuesOf k pairs) else none := by
  induction pairs using List.reverseRecOn with
  | nil => rfl
  | append_singleton pairs pair ih =>
    rw [group_concat, get?_push, valuesOf_concat]
    by_cases same : k = pair.1
    · subst same
      rw [ih]
      by_cases before : pair.1 ∈ pairs.map Prod.fst
      · simp [before]
      · simp [before, valuesOf_eq_nil.mpr before]
    · have before : k ∈ (pairs ++ [pair]).map Prod.fst ↔ k ∈ pairs.map Prod.fst := by simp [same]
      simp only [if_neg same, if_neg (Ne.symm same), List.append_nil, ih, before]

theorem mem_keys_group {pairs : List (κ × ν)} {k : κ} : k ∈ (group pairs).keys ↔ k ∈ pairs.map Prod.fst := by
  rw [← Dict.get?_isSome, get?_group]
  split <;> simp_all

/-! ### Keys that are equal without being the same

`canon` sends an object to what stands for all objects equal to it. An entry also
holds the object that was first given as its key. -/

section Objects
variable {α : Type*} (canon : α → κ)

def enter (groups : Dict κ (α × List ν)) (pair : α × ν) : Dict κ (α × List ν) :=
  groups.insert (canon pair.1)
    (((groups.get? (canon pair.1)).map Prod.fst).getD pair.1,
      ((groups.get? (canon pair.1)).map Prod.snd).getD [] ++ [pair.2])

def groupObjects (pairs : List (α × ν)) : Dict κ (α × List ν) := pairs.foldl (enter canon) ∅

/-- The pairs with each key replaced by what stands for it. -/
def classed (pairs : List (α × ν)) : List (κ × ν) := pairs.map (fun pair => (canon pair.1, pair.2))

/-- The first pair with the key `k`. -/
def firstOf (k : κ) (pairs : List (α × ν)) : Option (α × ν) := pairs.find? (fun pair => canon pair.1 = k)

theorem valuesOf_classed (k : κ) (pairs : List (α × ν)) :
    valuesOf k (classed canon pairs) = (pairs.filter (fun pair => canon pair.1 = k)).map Prod.snd := by
  induction pairs with
  | nil => rfl
  | cons pair rest ih =>
    rw [valuesOf, classed] at ih ⊢
    by_cases same : canon pair.1 = k <;> simp [same, ih]

theorem groupObjects_concat (pairs : List (α × ν)) (pair : α × ν) :
    groupObjects canon (pairs ++ [pair]) = enter canon (groupObjects canon pairs) pair := by
  rw [groupObjects, List.foldl_append]
  rfl

theorem keys_enter (groups : Dict κ (α × List ν)) (pair : α × ν) : (enter canon groups pair).keys =
    if canon pair.1 ∈ groups.keys then groups.keys else groups.keys ++ [canon pair.1] := by
  split
  · rename_i present
    exact Dict.insert_keys_of_present _ present
  · rename_i absent
    exact Dict.insert_keys_of_absent _ (Dict.get?_eq_none.mpr absent)

/-- The keys in the order in which they first occur. -/
theorem keys_groupObjects (pairs : List (α × ν)) :
    (groupObjects canon pairs).keys = (pairs.map (fun pair => canon pair.1)).eraseDups := by
  induction pairs using List.reverseRecOn with
  | nil => rfl
  | append_singleton pairs pair ih =>
    rw [groupObjects_concat, keys_enter, ih, List.map_append, List.eraseDups_append]
    by_cases before : canon pair.1 ∈ pairs.map (fun pair => canon pair.1)
    · rw [if_pos (List.mem_eraseDups.mpr before)]
      simp [List.removeAll, before]
    · rw [if_neg (fun member => before (List.mem_eraseDups.mp member))]
      simp [List.removeAll, before, List.eraseDups_cons]

theorem firstOf_eq_none {k : κ} {pairs : List (α × ν)} :
    firstOf canon k pairs = none ↔ k ∉ (classed canon pairs).map Prod.fst := by
  simp [firstOf, classed]

/-- The entry of a key: the object first given as that key, and the key's values in order. -/
theorem get?_groupObjects (pairs : List (α × ν)) (k : κ) : (groupObjects canon pairs).get? k =
    (firstOf canon k pairs).map (fun first => (first.1, valuesOf k (classed canon pairs))) := by
  induction pairs using List.reverseRecOn with
  | nil => rfl
  | append_singleton pairs pair ih =>
    have entered : (enter canon (groupObjects canon pairs) pair).get? k = _ := Dict.get?_insert _ _ _ _
    have found : firstOf canon k (pairs ++ [pair]) =
        (firstOf canon k pairs).or (if canon pair.1 = k then some pair else none) := by
      rw [firstOf, List.find?_append, List.find?_singleton]
      simp [firstOf]
    have values : valuesOf k (classed canon (pairs ++ [pair])) =
        valuesOf k (classed canon pairs) ++ if canon pair.1 = k then [pair.2] else [] := by
      rw [classed, List.map_append]
      exact valuesOf_concat k (classed canon pairs) (canon pair.1, pair.2)
    rw [groupObjects_concat, entered, found, values]
    by_cases same : k = canon pair.1
    · subst same
      rw [ih]
      cases first : firstOf canon (canon pair.1) pairs with
      | none => simp [valuesOf_eq_nil.mpr ((firstOf_eq_none canon).mp first)]
      | some earlier => simp
    · rw [if_neg same, if_neg (Ne.symm same), if_neg (Ne.symm same), ih]
      simp

/-- Every pair is in one group. -/
theorem total_groupObjects (pairs : List (α × ν)) :
    ((groupObjects canon pairs).values.map (fun group => group.2.length)).sum = pairs.length := by
  have sizes : (groupObjects canon pairs).values.map (fun group => group.2.length) =
      (groupObjects canon pairs).keys.map (fun k => ((classed canon pairs).map Prod.fst).count k) := by
    rw [Dict.values, Dict.keys, List.map_map, List.map_map]
    refine List.map_congr_left fun entry member => ?_
    have held := Dict.mem_entries.mp member
    rw [get?_groupObjects] at held
    obtain ⟨first, -, same⟩ := Option.map_eq_some_iff.mp held
    rw [Function.comp_apply, Function.comp_apply, ← same, length_valuesOf]
  have once : (groupObjects canon pairs).keys.Perm ((classed canon pairs).map Prod.fst).dedup := by
    refine (List.perm_ext_iff_of_nodup (groupObjects canon pairs).nodup (List.nodup_dedup _)).mpr fun k => ?_
    rw [← Dict.keys, keys_groupObjects, List.mem_eraseDups, List.mem_dedup]
    simp [classed]
  rw [sizes, (once.map _).sum_eq, List.sum_map_count_dedup_eq_length]
  simp [classed]

/-- The entry of a key in two groupings, the second one's values behind the first one's. -/
def joined : Option (α × List ν) → Option (α × List ν) → Option (α × List ν)
  | none, later => later
  | some group, none => some group
  | some group, some later => some (group.1, group.2 ++ later.2)

theorem keys_append (pairs later : List (α × ν)) : (groupObjects canon (pairs ++ later)).keys =
    (groupObjects canon pairs).keys ++
      (groupObjects canon later).keys.filter (· ∉ (groupObjects canon pairs).keys) := by
  induction later using List.reverseRecOn with
  | nil =>
    have none : (groupObjects canon ([] : List (α × ν))).keys = [] := rfl
    simp [none]
  | append_singleton later pair ih =>
    rw [← List.append_assoc, groupObjects_concat, keys_enter, ih, groupObjects_concat, keys_enter]
    by_cases here : canon pair.1 ∈ (groupObjects canon pairs).keys
    · by_cases there : canon pair.1 ∈ (groupObjects canon later).keys <;> simp [here, there]
    · by_cases there : canon pair.1 ∈ (groupObjects canon later).keys <;> simp [here, there]

theorem get?_append (pairs later : List (α × ν)) (k : κ) : (groupObjects canon (pairs ++ later)).get? k =
    joined ((groupObjects canon pairs).get? k) ((groupObjects canon later).get? k) := by
  have found : firstOf canon k (pairs ++ later) = (firstOf canon k pairs).or (firstOf canon k later) :=
    List.find?_append
  have values : valuesOf k (classed canon (pairs ++ later)) =
      valuesOf k (classed canon pairs) ++ valuesOf k (classed canon later) := by
    rw [classed, List.map_append]
    exact List.filterMap_append
  simp only [get?_groupObjects, found, values]
  cases here : firstOf canon k pairs with
  | none => simp [joined, valuesOf_eq_nil.mpr ((firstOf_eq_none canon).mp here)]
  | some first =>
    cases there : firstOf canon k later with
    | none => simp [joined, valuesOf_eq_nil.mpr ((firstOf_eq_none canon).mp there)]
    | some other => simp [joined]

end Objects
end Grouping
