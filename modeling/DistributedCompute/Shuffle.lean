import DistributedCompute.Jobs

/-! `jobs/shuffle.py` as a grouping. The source does nothing with a key but use it
in a dict, so `shuffleObjects` takes keys of any type, with `canon` telling which of
them are one dict key; `shuffle` on decoded values is its instance at `Key.canon`. -/
namespace DistributedCompute
open Py Grouping

/-- What `shuffle` reads of an IntermediateResult, its data taken apart into pairs. -/
structure PairResult (α ν : Type) where
  status : ResultStatus
  data : Option (List (α × ν))

/-- The pairs a result contributes. -/
def PairResult.pairs {α ν : Type} (result : PairResult α ν) : List (α × ν) :=
  if result.status = .success then result.data.getD [] else []

section Objects
variable {α κ ν : Type} [DecidableEq κ] (canon : α → κ)

def shuffleObjectResult (grouped : Dict κ (α × List ν)) (result : PairResult α ν) : Dict κ (α × List ν) :=
  if result.status ≠ .success then grouped
  else
    match result.data with
    | none => grouped
    | some pairs => pairs.foldl (enter canon) grouped

def shuffleObjects (results : List (PairResult α ν)) : Dict κ (α × List ν) :=
  results.foldl (shuffleObjectResult canon) ∅

theorem shuffleObjectResult_eq (grouped : Dict κ (α × List ν)) (result : PairResult α ν) :
    shuffleObjectResult canon grouped result = result.pairs.foldl (enter canon) grouped := by
  obtain ⟨status, data⟩ := result
  cases status with
  | error => rfl
  | success => cases data <;> rfl

/-- The results are one list of pairs. -/
theorem shuffleObjects_eq (results : List (PairResult α ν)) :
    shuffleObjects canon results = groupObjects canon (results.flatMap PairResult.pairs) := by
  rw [shuffleObjects, groupObjects]
  generalize (∅ : Dict κ (α × List ν)) = grouped
  induction results generalizing grouped with
  | nil => rfl
  | cons result rest ih =>
    rw [List.foldl_cons, ih, shuffleObjectResult_eq, List.flatMap_cons, List.foldl_append]

theorem pairs_of_successes (results : List (PairResult α ν)) :
    (results.filter (fun result => result.status = .success)).flatMap PairResult.pairs =
      results.flatMap PairResult.pairs := by
  induction results with
  | nil => rfl
  | cons result rest ih =>
    by_cases succeeded : result.status = .success
    · rw [List.filter_cons_of_pos (by simpa using succeeded), List.flatMap_cons, List.flatMap_cons, ih]
    · have nothing : result.pairs = [] := if_neg succeeded
      rw [List.filter_cons_of_neg (by simpa using succeeded), List.flatMap_cons, nothing, List.nil_append, ih]

end Objects

/-! ### Decoded values -/

/-- What `key, value = pair` takes out of a pair, when the key is hashable. -/
def Unpacks (pair : Val) (taken : Key × Val) : Prop :=
  ∃ key, pair.elements = .ok [key, taken.2] ∧ key.key? = .ok taken.1

/-- A result whose data, if it is successful and has any, consists of such pairs. -/
def Carries (result : IntermediateResult) (taken : PairResult Key Val) : Prop :=
  result.status = taken.status ∧ (result.status = .success →
    (result.data = .none ∧ taken.data = none) ∨
    ∃ items pairs, result.data.elements = .ok items ∧ taken.data = some pairs ∧ List.Forall₂ Unpacks items pairs)

theorem shufflePair_of_unpacks (grouped : ObjectDict (List Val)) {pair : Val} {taken : Key × Val}
    (unpacks : Unpacks pair taken) : shufflePair grouped pair = .ok (enter Key.canon grouped taken) := by
  obtain ⟨key, two, hashable⟩ := unpacks
  simp only [shufflePair, two, hashable]
  rfl

theorem shufflePairs_of_unpacks (grouped : ObjectDict (List Val)) {items : List Val} {pairs : List (Key × Val)}
    (unpacks : List.Forall₂ Unpacks items pairs) :
    items.foldlM shufflePair grouped = .ok (pairs.foldl (enter Key.canon) grouped) := by
  induction unpacks generalizing grouped with
  | nil => rfl
  | cons first _ ih =>
    rw [List.foldlM_cons, shufflePair_of_unpacks grouped first]
    exact ih _

theorem shuffleResult_of_carries (grouped : ObjectDict (List Val)) {result : IntermediateResult}
    {taken : PairResult Key Val} (carries : Carries result taken) :
    shuffleResult grouped result = .ok (taken.pairs.foldl (enter Key.canon) grouped) := by
  obtain ⟨status, data⟩ := carries
  rw [PairResult.pairs, ← status]
  unfold shuffleResult
  split
  · rename_i failed
    rw [failed]
    rfl
  · rename_i succeeded absent
    rcases data succeeded with ⟨-, none⟩ | ⟨items, pairs, elements, -, -⟩
    · rw [succeeded, none]
      rfl
    · rw [absent] at elements
      cases elements
  · rename_i succeeded present
    rcases data succeeded with ⟨absent, -⟩ | ⟨items, pairs, elements, some, unpacks⟩
    · exact absurd absent present
    · simp only [elements, succeeded, some, if_true, Option.getD_some]
      exact shufflePairs_of_unpacks grouped unpacks

theorem shuffleResults_of_carries (grouped : ObjectDict (List Val)) {results : List IntermediateResult}
    {taken : List (PairResult Key Val)} (carries : List.Forall₂ Carries results taken) :
    results.foldlM shuffleResult grouped =
      .ok ((taken.flatMap PairResult.pairs).foldl (enter Key.canon) grouped) := by
  induction carries generalizing grouped with
  | nil => rfl
  | cons first _ ih =>
    rw [List.foldlM_cons, shuffleResult_of_carries grouped first, List.flatMap_cons]
    exact (ih _).trans (congrArg Except.ok List.foldl_append.symm)

theorem shuffle_of_carries {results : List IntermediateResult} {taken : List (PairResult Key Val)}
    (carries : List.Forall₂ Carries results taken) : shuffle results = .ok (shuffleObjects Key.canon taken) :=
  (shuffleResults_of_carries .empty carries).trans (congrArg Except.ok (shuffleObjects_eq Key.canon taken).symm)

/-- `shuffle` of results with pairs of hashable keys: the keys of the successful
results in the order of their first occurrence, each as the object first given and
with the subsequence of its values; nothing is lost, a result that is not successful
adds nothing, and shuffling two lists one after the other appends the second's
values to the first's and puts its new keys last. -/
theorem shuffle_groups {α κ ν : Type} [DecidableEq κ] (canon : α → κ) (results later : List (PairResult α ν)) :
    (∀ (decoded : List IntermediateResult) taken, List.Forall₂ Carries decoded taken →
      shuffle decoded = .ok (shuffleObjects Key.canon taken)) ∧
    (shuffleObjects canon results).keys =
      ((results.flatMap PairResult.pairs).map (fun pair => canon pair.1)).eraseDups ∧
    (∀ k, (shuffleObjects canon results).get? k =
      ((results.flatMap PairResult.pairs).find? (fun pair => canon pair.1 = k)).map (fun first =>
        (first.1, ((results.flatMap PairResult.pairs).filter (fun pair => canon pair.1 = k)).map Prod.snd))) ∧
    ((shuffleObjects canon results).values.map (fun group => group.2.length)).sum =
      (results.flatMap PairResult.pairs).length ∧
    shuffleObjects canon results =
      shuffleObjects canon (results.filter (fun result => result.status = .success)) ∧
    (shuffleObjects canon (results ++ later)).keys = (shuffleObjects canon results).keys ++
      (shuffleObjects canon later).keys.filter (· ∉ (shuffleObjects canon results).keys) ∧
    ∀ k, (shuffleObjects canon (results ++ later)).get? k =
      joined ((shuffleObjects canon results).get? k) ((shuffleObjects canon later).get? k) := by
  simp only [shuffleObjects_eq, List.flatMap_append, pairs_of_successes]
  refine ⟨?_, keys_groupObjects canon _, ?_, total_groupObjects canon _, trivial, keys_append canon _ _,
    get?_append canon _ _⟩
  · intro decoded taken carries
    rw [← shuffleObjects_eq]
    exact shuffle_of_carries carries
  · intro k
    rw [get?_groupObjects, valuesOf_classed]
    rfl

end DistributedCompute
