import DistributedCompute.Json
import DistributedCompute.MapReduce

/-! The ids of the tasks of jobs. `build_map_job` and `build_reduce_job` join the job
id, a word and a partition number or the text of a key, without escaping: which of
these ids can be equal, and so when `submit_task` refuses a task of a job. Keys are the
scalars of JSON other than floats. -/
namespace DistributedCompute
open Py Raising Separators

/-- What `f"{key}"` gives. -/
def keyText : Key → Option String
  | .none => some "None"
  | .bool b => some (if b then "True" else "False")
  | .int n => some (toString n)
  | .str s => some s
  | .float _ | .other _ => none

def PrintsKeys (rt : Runtime) : Prop :=
  ∀ (key : Key) (text : String), keyText key = some text → rt.format key.val = text

/-- The job id, the phase, and the partition index or the key of a task. -/
inductive JobTask
  | map (jobId : String) (partitionId : Nat)
  | reduce (jobId : String) (key : Key)
  deriving DecidableEq, Repr

/-- Every task id of the job `inner` starts as the ids of the reduce phase of `outer` do. -/
def startsReduce (outer inner : String) : Bool :=
  (outer ++ "-reduce-").toList.isPrefixOf (inner ++ "-").toList

namespace JobTask

def jobId : JobTask → String
  | .map jobId _ | .reduce jobId _ => jobId

def taskId (rt : Runtime) : JobTask → TaskId
  | .map jobId partitionId => mapTaskId jobId partitionId
  | .reduce jobId key => reduceTaskId rt jobId key

/-- One partition, or keys that a dict does not keep apart, in one phase of one job. -/
def same : JobTask → JobTask → Bool
  | .map j i, .map k l => j = k && i = l
  | .reduce j x, .reduce k y => j = k && x.canon = y.canon
  | _, _ => false

def scalar : JobTask → Bool
  | .map _ _ => true
  | .reduce _ key => (keyText key).isSome

/-- The keys of one job are all strings or none is, and of two jobs with a reduce
phase in play neither's ids look like those of the other's reduce phase. -/
def separated : JobTask → JobTask → Bool
  | .map _ _, .map _ _ => true
  | .map j _, .reduce k _ => !startsReduce k j
  | .reduce j _, .map k _ => !startsReduce j k
  | .reduce j x, .reduce k y =>
    if j = k then x.isStr == y.isStr else !startsReduce j k && !startsReduce k j

/-- Different tasks that are kept apart. -/
def clear (a b : JobTask) : Bool := !a.same b && a.separated b

end JobTask

/-! ### The texts of keys -/

theorem toList_toString_ofNat (m : Nat) : (toString (Int.ofNat m)).toList = Nat.toDigits 10 m :=
  Nat.toList_repr

theorem toList_toString_negSucc (m : Nat) :
    (toString (Int.negSucc m)).toList = '-' :: Nat.toDigits 10 (m + 1) := by
  rw [← Nat.toList_repr]
  exact String.toList_append

theorem toString_int_injective {m n : Int} (same : toString m = toString n) : m = n := by
  have texts := congrArg String.toList same
  have unsigned (k : Nat) : '-' ∉ Nat.toDigits 10 k := notMem_toDigits (by decide) k
  cases m with
  | ofNat m =>
    cases n with
    | ofNat n =>
      rw [toList_toString_ofNat, toList_toString_ofNat] at texts
      rw [toDigits_injective texts]
    | negSucc n =>
      rw [toList_toString_ofNat, toList_toString_negSucc] at texts
      exact absurd (texts ▸ List.mem_cons_self) (unsigned m)
  | negSucc m =>
    cases n with
    | ofNat n =>
      rw [toList_toString_ofNat, toList_toString_negSucc] at texts
      exact absurd (texts ▸ List.mem_cons_self) (unsigned n)
    | negSucc n =>
      rw [toList_toString_negSucc, toList_toString_negSucc] at texts
      rw [Nat.succ_injective (toDigits_injective (List.cons.inj texts).2)]

theorem letter_notMem_toString {c : Char} (letter : c.isDigit = false) (unsigned : c ≠ '-') (n : Int) :
    c ∉ (toString n).toList := by
  cases n with
  | ofNat m =>
    rw [toList_toString_ofNat]
    exact notMem_toDigits letter m
  | negSucc m =>
    rw [toList_toString_negSucc, List.mem_cons]
    rintro (sign | member)
    · exact unsigned sign
    · exact notMem_toDigits letter _ member

theorem toString_ne_word (n : Int) {word : String} (named : word ∈ ["None", "True", "False"]) :
    toString n ≠ word := by
  rintro rfl
  have absent : 'e' ∉ (toString n).toList := letter_notMem_toString (by decide) (by decide) n
  simp only [List.mem_cons, List.not_mem_nil, or_false] at named
  rcases named with same | same | same
  all_goals
    rw [same] at absent
    exact absent (by decide)

/-- Keys that are all strings, or none of them, have different texts when a dict keeps
them apart. -/
theorem canon_of_text {x y : Key} {text : String} (kinds : x.isStr = y.isStr)
    (first : keyText x = some text) (second : keyText y = some text) : x.canon = y.canon := by
  have texts : keyText x = keyText y := first.trans second.symm
  cases x with
  | float bits => cases first
  | other typeName => cases first
  | str s =>
    cases y with
    | str s' => rw [Option.some.inj texts]
    | none | bool _ | int _ | float _ | other _ => cases kinds
  | none =>
    cases y with
    | none => rfl
    | bool b => cases b <;> simp [keyText] at texts
    | int n => exact absurd (Option.some.inj texts).symm (toString_ne_word n (by simp))
    | str _ => cases kinds
    | float _ | other _ => cases second
  | bool b =>
    cases y with
    | none => cases b <;> simp [keyText] at texts
    | bool b' => cases b <;> cases b' <;> simp [keyText] at texts ⊢
    | int n => exact absurd (Option.some.inj texts).symm (toString_ne_word n (by cases b <;> simp))
    | str _ => cases kinds
    | float _ | other _ => cases second
  | int n =>
    cases y with
    | none => exact absurd (Option.some.inj texts) (toString_ne_word n (by simp))
    | bool b => exact absurd (Option.some.inj texts) (toString_ne_word n (by cases b <;> simp))
    | int m => rw [toString_int_injective (Option.some.inj texts)]
    | str _ => cases kinds
    | float _ | other _ => cases second

/-! ### Reading an id back -/

theorem startsReduce_iff {outer inner : String} : startsReduce outer inner = true ↔
    outer.toList ++ "-reduce-".toList <+: inner.toList ++ ['-'] := by
  rw [startsReduce, List.isPrefixOf_iff_prefix, String.toList_append, String.toList_append]
  rfl

theorem startsReduce_self (job : String) : startsReduce job job = false := by
  rw [Bool.eq_false_iff]
  intro starts
  have short := (startsReduce_iff.mp starts).length_le
  simp at short

theorem reduceWord_ends (shorter : List Char) (cut : shorter ++ ['-'] <+: "-reduce-".toList) :
    shorter = [] ∨ shorter ++ ['-'] = "-reduce-".toList := by
  have words : ∀ word ∈ "-reduce-".toList.inits, word.getLast? = some '-' →
      word = ['-'] ∨ word = "-reduce-".toList := by decide
  rcases words _ ((List.mem_inits _ _).mpr cut) (by simp) with short | whole
  · exact .inl (by simpa using short)
  · exact .inr whole

/-- A text that is `outer`, the word of the reduce phase and something, and also
`inner`, a dash and something. -/
theorem startsReduce_of_longer {outer inner : String} {rest text tail : List Char}
    (longer : inner.toList = outer.toList ++ rest)
    (read : "-reduce-".toList ++ text = rest ++ '-' :: tail) : inner = outer ∨ startsReduce outer inner = true := by
  rcases prefix_of_separator reduceWord_ends read with rfl | starts
  · rw [List.append_nil] at longer
    exact .inl (String.toList_injective longer)
  · refine .inr (startsReduce_iff.mpr ?_)
    rw [longer, List.append_assoc]
    exact (List.prefix_append_right_inj _).mpr starts

section
variable {rt : Runtime} {j k : String}

theorem mapTaskId_eq {i l : Nat} (same : mapTaskId j i = mapTaskId k l) : j = k ∧ i = l := by
  have texts := congrArg String.toList same
  rw [toList_mapTaskId, toList_mapTaskId] at texts
  have parts : (j.toList ++ "-map".toList) ++ '-' :: Nat.toDigits 10 i =
      (k.toList ++ "-map".toList) ++ '-' :: Nat.toDigits 10 l := by simpa using texts
  have noDash (n : Nat) : '-' ∉ Nat.toDigits 10 n := notMem_toDigits (by decide) n
  obtain ⟨fronts, digits⟩ := separator_unique parts (noDash i) (noDash l)
  exact ⟨String.toList_injective (List.append_cancel_right fronts), toDigits_injective digits⟩

/-- A task of a map phase has the id of one of a reduce phase only if its whole job
id starts that way. -/
theorem startsReduce_of_map {key : Key} {l : Nat} (same : reduceTaskId rt j key = mapTaskId k l) :
    startsReduce j k = true := by
  have texts := congrArg String.toList same
  rw [toList_mapTaskId, toList_reduceTaskId, List.append_assoc, List.append_assoc] at texts
  have absent : 'r' ∉ "-map-".toList ++ Nat.toDigits 10 l := by
    rw [List.mem_append]
    rintro (word | digit)
    · revert word
      decide
    · exact notMem_toDigits (by decide) l digit
  rcases List.append_eq_append_iff.mp texts with ⟨rest, longer, read⟩ | ⟨rest, _, read⟩
  · rcases startsReduce_of_longer longer read with rfl | starts
    · exact absurd same (mapTaskId_ne_reduceTaskId rt k key l)
    · exact starts
  · refine absurd ?_ absent
    rw [read]
    simp

theorem startsReduce_of_reduce {x y : Key} (same : reduceTaskId rt j x = reduceTaskId rt k y) :
    j = k ∨ startsReduce j k = true ∨ startsReduce k j = true := by
  have texts := congrArg String.toList same
  rw [toList_reduceTaskId, toList_reduceTaskId, List.append_assoc, List.append_assoc] at texts
  rcases List.append_eq_append_iff.mp texts with ⟨rest, longer, read⟩ | ⟨rest, longer, read⟩
  · rcases startsReduce_of_longer longer read with rfl | starts
    · exact .inl rfl
    · exact .inr (.inl starts)
  · rcases startsReduce_of_longer longer read with rfl | starts
    · exact .inl rfl
    · exact .inr (.inr starts)

end

/-- Tasks that are kept apart have different ids. -/
theorem JobTask.taskId_ne_of_clear {rt : Runtime} (prints : PrintsKeys rt) {a b : JobTask}
    (first : a.scalar = true) (second : b.scalar = true) (apart : a.clear b = true) :
    a.taskId rt ≠ b.taskId rt := by
  intro same
  obtain ⟨different, separated⟩ := Bool.and_eq_true_iff.mp apart
  cases a with
  | map j i =>
    cases b with
    | map k l =>
      obtain ⟨rfl, rfl⟩ := mapTaskId_eq same
      simp [JobTask.same] at different
    | reduce k y =>
      have starts := startsReduce_of_map same.symm
      simp [JobTask.separated, starts] at separated
  | reduce j x =>
    cases b with
    | map k l =>
      have starts := startsReduce_of_map same
      simp [JobTask.separated, starts] at separated
    | reduce k y =>
      by_cases jobs : j = k
      · subst jobs
        obtain ⟨text, first⟩ := Option.isSome_iff_exists.mp first
        obtain ⟨text', second⟩ := Option.isSome_iff_exists.mp second
        have texts : text = text' := by
          rw [← prints x text first, ← prints y text' second]
          exact reduceTaskId_injective same
        subst texts
        have kinds : x.isStr = y.isStr := by simpa [JobTask.separated] using separated
        simp [JobTask.same, canon_of_text kinds first second] at different
      · rcases startsReduce_of_reduce same with equal | starts | starts
        · exact jobs equal
        · simp [JobTask.separated, jobs, starts] at separated
        · simp [JobTask.separated, jobs, starts] at separated

/-- For every key that is no string there is a string key with the same id. -/
theorem taken_of_text {rt : Runtime} (prints : PrintsKeys rt) (jobId : String) {key : Key} {text : String}
    (printed : keyText key = some text) (other : key.isStr = false) :
    (JobTask.reduce jobId (.str text)).same (.reduce jobId key) = false ∧
      reduceTaskId rt jobId (.str text) = reduceTaskId rt jobId key := by
  have texts : rt.format (Key.str text).val = rt.format key.val := (prints key text printed).symm
  refine ⟨?_, by rw [reduceTaskId, texts, reduceTaskId]⟩
  cases key with
  | str s => cases other
  | float _ | other _ => cases printed
  | none | bool _ | int _ => simp [JobTask.same, Key.canon]

theorem JobTask.dash_prefix_taskId (rt : Runtime) (b : JobTask) :
    b.jobId.toList ++ ['-'] <+: (b.taskId rt).toList := by
  cases b with
  | map k l =>
    rw [JobTask.taskId, toList_mapTaskId, List.append_assoc]
    exact (List.prefix_append_right_inj _).mpr ⟨"map-".toList ++ Nat.toDigits 10 l, rfl⟩
  | reduce k y =>
    rw [JobTask.taskId, toList_reduceTaskId, List.append_assoc]
    exact (List.prefix_append_right_inj _).mpr ⟨"reduce-".toList ++ (rt.format y.val).toList, rfl⟩

/-- Where a job id starts as the ids of another job's reduce phase, that job has a
string key for each id of the first. -/
theorem taken_of_startsReduce (rt : Runtime) {jobId : String} {b : JobTask}
    (starts : startsReduce jobId b.jobId = true) :
    ∃ text, (JobTask.reduce jobId (.str text)).same b = false ∧ reduceTaskId rt jobId (.str text) = b.taskId rt := by
  obtain ⟨rest, read⟩ := (startsReduce_iff.mp starts).trans (b.dash_prefix_taskId rt)
  refine ⟨String.ofList rest, ?_, String.toList_injective ?_⟩
  · cases b with
    | map k l => rfl
    | reduce k y =>
      have jobs : jobId ≠ k := by
        rintro rfl
        exact absurd starts (by simp [JobTask.jobId, startsReduce_self])
      simp [JobTask.same, jobs]
  · rw [toList_reduceTaskId, ← read]
    exact congrArg _ String.toList_ofList

/-! ### The keys of a shuffled dict -/

/-- Each object is stored under its canonical form. -/
def Canonical {ν : Type} (d : ObjectDict ν) : Prop :=
  ∀ key item, Dict.get? d key = some item → item.1.canon = key

theorem canonical_empty {ν : Type} : Canonical (.empty : ObjectDict ν) := by
  intro key item held
  cases held

theorem Canonical.set {ν : Type} {d : ObjectDict ν} (canonical : Canonical d) (key : Key) (value : ν) :
    Canonical (d.set key value) := by
  have stored : ∀ other, Dict.get? (d.set key value) other = if other = key.canon
      then some (((Dict.get? d key.canon).map Prod.fst).getD key, value) else Dict.get? d other :=
    fun other => Dict.get?_insert d key.canon other _
  intro other item held
  rw [stored] at held
  split at held
  · rename_i here
    cases held
    rw [here]
    -- an equal key that is there already stays as it was first given
    cases first : Dict.get? d key.canon with
    | none => rfl
    | some item => exact canonical key.canon item first
  · exact canonical other item held

theorem Canonical.nodup {ν : Type} {d : ObjectDict ν} (canonical : Canonical d) :
    (d.items.map (fun item => item.1.canon)).Nodup := by
  have keys : d.items.map (fun item => item.1.canon) = (Dict.entries d).map Prod.fst := by
    have shape : d.items = (Dict.entries d).map Prod.snd := rfl
    rw [shape, List.map_map]
    refine List.map_congr_left fun e member => ?_
    exact canonical e.1 e.2 (Dict.mem_entries.mp member)
  rw [keys]
  exact Dict.nodup d

theorem Canonical.shufflePair {grouped later : ObjectDict (List Val)} {pair : Val} (canonical : Canonical grouped)
    (entered : shufflePair grouped pair = .ok later) : Canonical later := by
  rw [DistributedCompute.shufflePair] at entered
  split at entered
  · cases entered
  · split at entered
    · cases entered
    · cases entered
      exact canonical.set _ _
  · split at entered <;> cases entered

theorem Canonical.shuffleResult {grouped later : ObjectDict (List Val)} {result : IntermediateResult}
    (canonical : Canonical grouped) (entered : shuffleResult grouped result = .ok later) : Canonical later := by
  rw [DistributedCompute.shuffleResult] at entered
  split at entered
  · cases entered
    exact canonical
  · cases entered
    exact canonical
  · split at entered
    · cases entered
    · exact foldlM_keeps Canonical.shufflePair canonical entered

theorem canonical_shuffle {results : List IntermediateResult} {grouped : ObjectDict (List Val)}
    (shuffled : shuffle results = .ok grouped) : Canonical grouped :=
  foldlM_keeps Canonical.shuffleResult canonical_empty shuffled

/-! ### Submitting a job -/

/-- Every task of the scheduler is a job's, and kept apart from each of `tasks`. -/
def HoldsApart (rt : Runtime) (s : Scheduler) (tasks : JobTask → Prop) : Prop :=
  ∀ t, s.tasks.get? t ≠ none → ∃ b : JobTask, b.scalar = true ∧ b.taskId rt = t ∧ ∀ a, tasks a → a.clear b = true

section
variable {rt : Runtime} {s : Scheduler} {jobId : String} {operation : ExecutionSpec} {e : PyError}

theorem HoldsApart.fresh {tasks : JobTask → Prop} (apart : HoldsApart rt s tasks) (prints : PrintsKeys rt)
    {a : JobTask} (mine : tasks a) (scalar : a.scalar = true) : s.tasks.get? (a.taskId rt) = none := by
  by_contra held
  obtain ⟨b, other, same, clear⟩ := apart _ held
  exact JobTask.taskId_ne_of_clear prints scalar other (clear a mine) same.symm

theorem buildMapJob_unrefused {data : List Val} {numPartitions : Int} (prints : PrintsKeys rt)
    (apart : HoldsApart rt s (fun a => ∃ i, a = .map jobId i))
    (raised : (buildMapJob rt s jobId operation data numPartitions).1 = .error e) :
    operationFields rt operation = .error e ∨ partition data numPartitions = .error e := by
  have fresh (i : Nat) : s.tasks.get? (mapTaskId jobId i) = none := apart.fresh prints ⟨i, rfl⟩ rfl
  rw [buildMapJob] at raised
  cases chosen : operationFields rt operation with
  | error raisedFirst =>
    rw [chosen] at raised
    cases raised
    exact .inl rfl
  | ok fields =>
    cases cut : partition data numPartitions with
    | error raisedThen =>
      rw [chosen, cut] at raised
      cases raised
      exact .inr rfl
    | ok chunks =>
      rw [chosen, cut] at raised
      have accepted := (submit_mapSubmissions fields chunks fresh).1
      cases accepted.symm.trans raised

/-- Under new and different task_ids, only a key that cannot be formatted ends the loop. -/
theorem submitEach_unrefused {fields : List (Key × Val)} {items : List (Key × List Val)}
    (different : items.Pairwise (fun x y => reduceTaskId rt jobId x.1 ≠ reduceTaskId rt jobId y.1))
    (fresh : ∀ item ∈ items, s.tasks.get? (reduceTaskId rt jobId item.1) = none)
    (raised : (submitEach s (items.map (reduceRequest rt jobId fields))).1 = .error e) :
    ∃ item ∈ items, ∃ text, keyFormatError item.1 = some text ∧ e = .valueError text := by
  induction items generalizing s with
  | nil => cases raised
  | cons item rest ih =>
    obtain ⟨apart, different⟩ := List.pairwise_cons.mp different
    cases formatted : keyFormatError item.1 with
    | some text =>
      simp only [List.map_cons, reduceRequest, formatted, submitEach] at raised
      exact ⟨item, List.mem_cons_self, text, formatted, (Except.error.inj raised).symm⟩
    | none =>
      have accepted (payload : List (Key × Val)) := @submitTask_fresh _ _ "REDUCE" payload
        (reduceTaskId_ne_empty rt jobId item.1) (by simp) (fresh item List.mem_cons_self)
      simp only [List.map_cons, reduceRequest, formatted, submitEach, reduceSubmission, accepted] at raised
      obtain ⟨other, later, found⟩ := ih different (by
        intro other later
        rw [Dict.get?_insert, if_neg (apart other later).symm]
        exact fresh other (List.mem_cons_of_mem item later)) (map_eq_error.mp raised)
      exact ⟨other, List.mem_cons_of_mem item later, found⟩

theorem buildReduceJob_unrefused {grouped : ObjectDict (List Val)} (prints : PrintsKeys rt)
    (canonical : Canonical grouped) (scalars : ∀ item ∈ grouped.items, (keyText item.1).isSome = true)
    (kinds : ∀ x ∈ grouped.items, ∀ y ∈ grouped.items, x.1.isStr = y.1.isStr)
    (apart : HoldsApart rt s (fun a => ∃ item ∈ grouped.items, a = .reduce jobId item.1))
    (raised : (buildReduceJob rt s jobId grouped operation).1 = .error e) :
    operationFields rt operation = .error e ∨
      ∃ item ∈ grouped.items, ∃ text, keyFormatError item.1 = some text ∧ e = .valueError text := by
  rw [buildReduceJob] at raised
  cases chosen : operationFields rt operation with
  | error raisedFirst =>
    rw [chosen] at raised
    cases raised
    exact .inl rfl
  | ok fields =>
    rw [chosen] at raised
    have different : grouped.items.Pairwise
        (fun x y => reduceTaskId rt jobId x.1 ≠ reduceTaskId rt jobId y.1) := by
      refine (List.pairwise_map.mp canonical.nodup).imp_of_mem fun {x y} first second keys => ?_
      refine @JobTask.taskId_ne_of_clear rt prints (.reduce jobId x.1) (.reduce jobId y.1)
        (scalars x first) (scalars y second) ?_
      simp [JobTask.clear, JobTask.same, JobTask.separated, keys, kinds x first y second]
    refine .inr (submitEach_unrefused different (fun item there => ?_) (map_eq_error.mp raised))
    exact apart.fresh prints ⟨item, there, rfl⟩ (scalars item there)

end

/-- Job task ids do not collide, and no job is refused, where the keys of a job are of
one kind and no job id starts as the ids of another's reduce phase. -/
theorem jobTaskIds_distinct {rt : Runtime} (prints : PrintsKeys rt) :
    (∀ a b : JobTask, a.scalar = true → b.scalar = true → a.same b = false → a.separated b = true →
      a.taskId rt ≠ b.taskId rt) ∧
    (∀ s jobId operation data numPartitions e, HoldsApart rt s (fun a => ∃ i, a = .map jobId i) →
      (buildMapJob rt s jobId operation data numPartitions).1 = .error e →
      operationFields rt operation = .error e ∨ partition data numPartitions = .error e) ∧
    (∀ s jobId operation results grouped e, shuffle results = .ok grouped →
      (∀ item ∈ grouped.items, (keyText item.1).isSome = true) →
      (∀ x ∈ grouped.items, ∀ y ∈ grouped.items, x.1.isStr = y.1.isStr) →
      HoldsApart rt s (fun a => ∃ item ∈ grouped.items, a = .reduce jobId item.1) →
      (buildReduceJob rt s jobId grouped operation).1 = .error e → operationFields rt operation = .error e ∨
        ∃ item ∈ grouped.items, ∃ text, keyFormatError item.1 = some text ∧ e = .valueError text) ∧
    (∀ jobId key i, (JobTask.reduce jobId key).clear (.map jobId i) = true) ∧
    -- elsewhere there are collisions
    (∀ jobId (b : JobTask), startsReduce jobId b.jobId = true →
      ∃ text, (JobTask.reduce jobId (.str text)).same b = false ∧
        reduceTaskId rt jobId (.str text) = b.taskId rt) ∧
    (∀ jobId key text, keyText key = some text → key.isStr = false →
      (JobTask.reduce jobId (.str text)).same (.reduce jobId key) = false ∧
        reduceTaskId rt jobId (.str text) = reduceTaskId rt jobId key) := by
  refine ⟨?_, ?_, ?_, ?_, ?_, ?_⟩
  · intro a b first second different separated
    exact JobTask.taskId_ne_of_clear prints first second (by simp [JobTask.clear, different, separated])
  · intro s jobId operation data numPartitions e apart raised
    exact buildMapJob_unrefused prints apart raised
  · intro s jobId operation results grouped e shuffled scalars kinds apart raised
    exact buildReduceJob_unrefused prints (canonical_shuffle shuffled) scalars kinds apart raised
  · intro jobId key i
    simp [JobTask.clear, JobTask.same, JobTask.separated, startsReduce_self]
  · intro jobId b starts
    exact taken_of_startsReduce rt starts
  · intro jobId key text printed other
    exact taken_of_text prints jobId printed other

/-- A runtime that writes scalars as Python does. -/
def scalarRuntime : Runtime :=
  { bareRuntime with
    str := fun v => match v.key? with
      | .ok key => (keyText key).getD "?"
      | .error _ => "?" }

theorem scalarRuntime_prints : PrintsKeys scalarRuntime := by
  intro key text printed
  cases key with
  | none | bool _ | int _ | str _ => exact Option.some.inj printed
  | float _ | other _ => cases printed

/-- A map task that emitted the given pairs. -/
def emitted (pairs : List Val) : IntermediateResult :=
  ⟨"j", 0, "j-map-0", .success, .list pairs, .none, none, .int 1⟩

/-- The keys None and 1 of a job whose map task is in the scheduler. -/
theorem plainKeys_accepted : ∃ s grouped, shuffle [emitted [.list [.none, .int 5], .list [.int 1, .int 7]]] =
      .ok grouped ∧ s.tasks.keys = ["j-map-0"] ∧
    ∀ e, (buildReduceJob scalarRuntime s "j" grouped (.registered "SUM")).1 ≠ .error e := by
  refine ⟨(buildMapJob scalarRuntime ⟨∅, ∅⟩ "j" (.registered "SQUARE") [.int 1] 1).2, _, rfl, rfl, ?_⟩
  intro e raised
  obtain ⟨-, -, unrefused, ownMap, -⟩ := jobTaskIds_distinct scalarRuntime_prints
  have failed := unrefused _ "j" (.registered "SUM") [emitted [.list [.none, .int 5], .list [.int 1, .int 7]]] _ e
    rfl (by decide) (by decide) (by
      intro t held
      have submitted : t ∈ ["j-map-0"] := Dict.get?_isSome.mp (Option.isSome_iff_ne_none.mpr held)
      refine ⟨.map "j" 0, rfl, (List.mem_singleton.mp submitted).symm, ?_⟩
      rintro a ⟨item, -, rfl⟩
      exact ownMap "j" item.1 0) raised
  rcases failed with chosen | ⟨item, member, text, unformatted, -⟩
  · cases chosen
  · rcases List.mem_pair.mp (show item ∈ [(.none, [.int 5]), (.int 1, [.int 7])] from member) with rfl | rfl
    · cases unformatted
    · have written : keyFormatError (.int 1) = none := by decide
      cases written.symm.trans unformatted

/-- Keys 1 and "1" of one job; a key of one job that holds another's job id; a key that
reads as a map task of another job. -/
theorem unescapedIds_collide :
    (∃ grouped, shuffle [emitted [.list [.int 1, .int 5], .list [.str "1", .int 7]]] = .ok grouped ∧
      (buildReduceJob scalarRuntime ⟨∅, ∅⟩ "j" grouped (.registered "SUM")).1 =
        .error (.valueError "Task already exists: j-reduce-1")) ∧
    (∃ first second s, shuffle [emitted [.list [.str "b-reduce-c", .int 5]]] = .ok first ∧
      shuffle [emitted [.list [.str "c", .int 7]]] = .ok second ∧
      (buildReduceJob scalarRuntime ⟨∅, ∅⟩ "a" first (.registered "SUM")).2 = s ∧
      (buildReduceJob scalarRuntime s "a-reduce-b" second (.registered "SUM")).1 =
        .error (.valueError "Task already exists: a-reduce-b-reduce-c")) ∧
    (∃ grouped s, shuffle [emitted [.list [.str "map-0", .int 5]]] = .ok grouped ∧
      (buildReduceJob scalarRuntime ⟨∅, ∅⟩ "j" grouped (.registered "SUM")).2 = s ∧
      (buildMapJob scalarRuntime s "j-reduce" (.registered "SQUARE") [.int 1] 1).1 =
        .error (.valueError "Task already exists: j-reduce-map-0")) := by
  refine ⟨⟨_, rfl, ?_⟩, ⟨_, _, _, rfl, rfl, rfl, ?_⟩, ⟨_, _, rfl, rfl, ?_⟩⟩
  · rfl
  · rfl
  · rfl

end DistributedCompute
