import DistributedCompute.Partitioning
import DistributedCompute.Separators
import DistributedCompute.Raising

/-! MapReduce against its sequential meaning. `ExecutionSpec.mapOne` and
`ExecutionSpec.reduceAll` say what an operation computes; a run over any number
of partitions, with any dispatch function that answers with results of
`execute_task`, groups what the operation emits and reduces each group. -/
namespace DistributedCompute
open Py Raising

/-! ### The sequential meaning -/

namespace ExecutionSpec

/-- The map operation on one element. -/
def mapOne (rt : Runtime) : ExecutionSpec → Val → Except Raised Val
  | .serialized fn, value => Runtime.userResult (fn [value] [])
  | .registered operation, value =>
    match mapOperation? operation with
    | some builtIn => rt.applyMapOperation builtIn value
    | none =>
      match rt.functions operation with
      | some fn => Runtime.userResult (fn [value] [])
      | none => .error (.execution .unknownOperation s!"Unsupported MAP operation: {operation}")

/-- The reduce operation on the values of one key. -/
def reduceAll (rt : Runtime) : ExecutionSpec → List Val → Except Raised Val
  | .serialized fn, values => Runtime.userResult (fn [.list values] [])
  | .registered operation, values =>
    match reduceOperation? operation with
    | some builtIn => rt.applyReduceOperation builtIn values
    | none =>
      match rt.functions operation with
      | some fn => Runtime.userResult (fn [.list values] [])
      | none => .error (.execution .unknownOperation s!"Unsupported REDUCE operation: {operation}")

/-- The key and value that the map operation emits for an element. -/
def emit (rt : Runtime) (operation : ExecutionSpec) (value : Val) : Option (String × Val) :=
  match operation.mapOne rt value with
  | .ok (.list [.str key, emitted]) => some (key, emitted)
  | _ => none

/-- A callable that is sent to a worker arrives as it was. -/
def Ships (rt : Runtime) : ExecutionSpec → Prop
  | .registered _ => True
  | .serialized fn => ∃ text, rt.serialize fn = .ok text ∧ text ≠ "" ∧ rt.deserialize text = .ok fn

end ExecutionSpec

/-! ### What a worker computes for the tasks of a job -/

section Execution
variable {rt : Runtime} {operation : ExecutionSpec} {fields : List (Key × Val)}
variable {result : Val}
variable {fn : Callable} {name : String} {values : List Val}

theorem mapUser_ok {data : List Val} (h : rt.mapUser fn data name = .ok result) :
    ∃ mapped, result = .list mapped ∧ data.mapM (fun value => Runtime.userResult (fn [value] [])) = .ok mapped := by
  obtain ⟨mapped, all, h⟩ := bind_eq_ok.mp h
  obtain ⟨_, _, h⟩ := bind_eq_ok.mp h
  cases h
  exact ⟨mapped, rfl, all⟩

theorem reduceUser_ok (h : rt.reduceUser fn values name = .ok result) :
    Runtime.userResult (fn [.list values] []) = .ok result := by
  obtain ⟨called, returned, h⟩ := bind_eq_ok.mp h
  obtain ⟨_, _, h⟩ := bind_eq_ok.mp h
  cases h
  exact returned

/-- A MAP task of a job maps its chunk with the job's operation. -/
theorem executeMap_ok {chunk : List Val} (ships : operation.Ships rt)
    (chosen : operationFields rt operation = .ok fields)
    (h : rt.executeMap (fields ++ [(.str "data", .list chunk)]) = .ok result) :
    ∃ mapped, result = .list mapped ∧ chunk.mapM (operation.mapOne rt) = .ok mapped := by
  cases operation with
  | serialized fn =>
    obtain ⟨text, encoded, some, decoded⟩ := ships
    simp only [operationFields, encoded, Except.ok.injEq] at chosen
    subst chosen
    simp [Runtime.executeMap, entry, Runtime.isSerialized, Runtime.deserializeCallableField, some, decoded, bind,
      Except.bind] at h
    exact mapUser_ok h
  | registered name =>
    simp only [operationFields, Except.ok.injEq] at chosen
    subst chosen
    simp [Runtime.executeMap, entry, Runtime.isSerialized, Runtime.resolve, Val.lookup] at h
    cases builtIn : mapOperation? name with
    | some chosen =>
      have each : ExecutionSpec.mapOne rt (.registered name) = rt.applyMapOperation chosen := by
        funext value
        simp only [ExecutionSpec.mapOne, builtIn]
      simp only [builtIn, bind, Except.bind] at h
      rw [each]
      obtain ⟨mapped, all, rfl⟩ := map_eq_ok.mp h
      exact ⟨mapped, rfl, all⟩
    | none =>
      cases known : rt.functions name with
      | some fn =>
        have each : ExecutionSpec.mapOne rt (.registered name) =
            fun value => Runtime.userResult (fn [value] []) := by
          funext value
          simp only [ExecutionSpec.mapOne, builtIn, known]
        simp only [builtIn, known] at h
        rw [each]
        exact mapUser_ok h
      | none =>
        simp only [builtIn, known] at h
        cases h

/-- A REDUCE task of a job reduces its values with the job's operation. -/
theorem executeReduce_ok {key : Val} (ships : operation.Ships rt) (chosen : operationFields rt operation = .ok fields)
    (h : rt.executeReduce (fields ++ [(.str "key", key), (.str "values", .list values)]) = .ok result) :
    operation.reduceAll rt values = .ok result := by
  cases operation with
  | serialized fn =>
    obtain ⟨text, encoded, some, decoded⟩ := ships
    simp only [operationFields, encoded, Except.ok.injEq] at chosen
    subst chosen
    cases values with
    | nil => simp [Runtime.executeReduce, entry] at h
    | cons first rest =>
      simp [Runtime.executeReduce, entry, Runtime.isSerialized, Runtime.deserializeCallableField, some, decoded,
        bind, Except.bind] at h
      exact reduceUser_ok h
  | registered name =>
    simp only [operationFields, Except.ok.injEq] at chosen
    subst chosen
    cases values with
    | nil => simp [Runtime.executeReduce, entry] at h
    | cons first rest =>
      simp [Runtime.executeReduce, entry, Runtime.isSerialized, Runtime.resolve, Val.lookup] at h
      simp only [ExecutionSpec.reduceAll]
      cases builtIn : reduceOperation? name with
      | some chosen =>
        simp only [builtIn] at h
        exact h
      | none =>
        cases known : rt.functions name with
        | some fn =>
          simp only [builtIn, known] at h
          exact reduceUser_ok h
        | none =>
          simp only [builtIn, known] at h
          cases h

end Execution

/-! ### Submitting, partitioning and indexing -/

/-- The task record of a submission. -/
def Submission.task (submission : Submission) : Task := ⟨submission.taskType, submission.payload, .pending, none, 0⟩

variable {s : Scheduler} {response : Message} {rt : Runtime}

theorem submitTask_fresh {t taskType : String} {payload : List (Key × Val)} (named : t ≠ "") (typed : taskType ≠ "")
    (absent : s.tasks.get? t = none) :
    s.submitTask t taskType payload = (.ok ⟨taskType, payload, .pending, none, 0⟩,
      { s with tasks := s.tasks.insert t ⟨taskType, payload, .pending, none, 0⟩ }) := by
  simp [Scheduler.submitTask, named, typed, Dict.contains, absent]

/-- Submissions under new and different task_ids all go through. -/
theorem submitAll_fresh {submissions : List Submission} (different : (submissions.map Submission.taskId).Nodup)
    (fresh : ∀ next ∈ submissions, next.taskId ≠ "" ∧ next.taskType ≠ "" ∧ s.tasks.get? next.taskId = none) :
    (submitAll s submissions).1 = .ok (submissions.map (fun next => (next.taskId, next.task))) ∧
    (∀ next ∈ submissions, (submitAll s submissions).2.tasks.get? next.taskId = some next.task) ∧
    ∀ t ∉ submissions.map Submission.taskId, (submitAll s submissions).2.tasks.get? t = s.tasks.get? t := by
  induction submissions generalizing s with
  | nil => exact ⟨rfl, nofun, fun _ _ => rfl⟩
  | cons first rest ih =>
    obtain ⟨new, different⟩ := List.nodup_cons.mp different
    obtain ⟨named, typed, absent⟩ := fresh first List.mem_cons_self
    have inserted : ∀ t, (s.tasks.insert first.taskId first.task).get? t =
        if t = first.taskId then some first.task else s.tasks.get? t :=
      fun t => Dict.get?_insert s.tasks first.taskId t first.task
    obtain ⟨all, stored, others⟩ := ih
      (s := { s with tasks := s.tasks.insert first.taskId first.task }) different (by
      intro next member
      obtain ⟨named, typed, absent⟩ := fresh next (List.mem_cons_of_mem first member)
      refine ⟨named, typed, ?_⟩
      rw [inserted, if_neg, absent]
      rintro same
      exact new (same ▸ List.mem_map_of_mem member))
    have unfolded : submitAll s (first :: rest) =
        ((submitAll { s with tasks := s.tasks.insert first.taskId first.task } rest).1.map
          ((first.taskId, first.task) :: ·),
        (submitAll { s with tasks := s.tasks.insert first.taskId first.task } rest).2) := by
      rw [submitAll, submitTask_fresh named typed absent]
      rfl
    rw [unfolded]
    refine ⟨by rw [all]; rfl, ?_, ?_⟩
    · intro next member
      rcases List.mem_cons.mp member with rfl | later
      · rw [others _ new, inserted, if_pos rfl]
      · exact stored next later
    · intro t outside
      rw [List.map_cons, List.mem_cons, not_or] at outside
      rw [others t outside.2, inserted, if_neg outside.1]

/-- A task_id that can be looked up, if there is one. -/
def Message.identified (response : Message) : Bool :=
  match ((response.get? "task_id").getD .none).lookup with
  | .unhashable _ => false
  | _ => true

theorem indexResponse_ok (index : Dict TaskId Message) (identified : response.identified = true) :
    ∃ index', indexResponse index response = .ok index' ∧
      ∀ t, index'.get? t = (lastAnswer t [response]).or (index.get? t) := by
  have named : ∀ t, response.about t = true ↔ ((response.get? "task_id").getD .none).lookup = .named t := by
    intro t
    unfold Message.about
    rcases response.get? "task_id" with _ | v
    · simp [Val.lookup]
    · cases v <;> simp [Val.lookup]
  unfold indexResponse
  unfold Message.identified at identified
  split at identified
  · cases identified
  · rename_i hashable
    split
    · rename_i ty unhashable
      exact absurd unhashable (hashable ty)
    · rename_i absent
      refine ⟨index, rfl, fun t => ?_⟩
      have other : response.about t = false := by
        rw [← Bool.not_eq_true, named, absent]
        exact Lookup.noConfusion
      simp [lastAnswer, other]
    · rename_i u found
      refine ⟨_, rfl, fun t => ?_⟩
      rw [Dict.get?_insert]
      by_cases same : t = u
      · have about : response.about t = true := (named t).mpr (same ▸ found)
        simp [lastAnswer, same ▸ about, same]
      · have other : response.about t = false := by
          rw [← Bool.not_eq_true, named, found]
          exact fun equal => same (Lookup.named.inj equal).symm
        simp [lastAnswer, other, same]

/-- The index of the responses holds the last answer for each task. -/
theorem index_ok {responses : List Message} (identified : ∀ response ∈ responses, response.identified = true) :
    ∃ index, indexResponsesByTaskId responses = .ok index ∧ ∀ t, index.get? t = lastAnswer t responses := by
  suffices h : ∀ start : Dict TaskId Message, ∃ index, responses.foldlM indexResponse start = .ok index ∧
      ∀ t, index.get? t = (lastAnswer t responses).or (start.get? t) by
    obtain ⟨index, folded, holds⟩ := h ∅
    exact ⟨index, folded, fun t => by rw [holds t]; simp⟩
  induction responses with
  | nil => exact fun start => ⟨start, rfl, fun t => by simp [lastAnswer]⟩
  | cons first rest ih =>
    intro start
    obtain ⟨next, entered, newest⟩ := indexResponse_ok start (identified first List.mem_cons_self)
    obtain ⟨index, folded, holds⟩ :=
      ih (fun response member => identified response (List.mem_cons_of_mem _ member)) next
    refine ⟨index, ?_, fun t => ?_⟩
    · rw [List.foldlM_cons, entered]
      exact folded
    · have split : lastAnswer t (first :: rest) = (lastAnswer t rest).or (lastAnswer t [first]) :=
        lastAnswer_append t [first] rest
      rw [holds t, newest t, split, Option.or_assoc]

/-! ### The task_ids of a job -/

theorem toList_mapTaskId (jobId : String) (index : Nat) :
    (mapTaskId jobId index).toList = jobId.toList ++ "-map-".toList ++ Nat.toDigits 10 index := by
  simp only [mapTaskId, toString, String.toList_append, Nat.toList_repr]

theorem toList_reduceTaskId (rt : Runtime) (jobId : String) (key : Key) :
    (reduceTaskId rt jobId key).toList = jobId.toList ++ "-reduce-".toList ++ (rt.format key.val).toList := by
  simp only [reduceTaskId, toString, String.toList_append]

variable {jobId : String}

theorem mapTaskId_injective {i j : Nat} (same : mapTaskId jobId i = mapTaskId jobId j) : i = j := by
  have texts := congrArg String.toList same
  rw [toList_mapTaskId, toList_mapTaskId, List.append_cancel_left_eq] at texts
  exact Separators.toDigits_injective texts

theorem reduceTaskId_injective {key other : Key} (same : reduceTaskId rt jobId key = reduceTaskId rt jobId other) :
    rt.format key.val = rt.format other.val := by
  have texts := congrArg String.toList same
  rw [toList_reduceTaskId, toList_reduceTaskId, List.append_cancel_left_eq] at texts
  exact String.toList_injective texts

theorem mapTaskId_ne_reduceTaskId (rt : Runtime) (jobId : String) (key : Key) (index : Nat) :
    reduceTaskId rt jobId key ≠ mapTaskId jobId index := by
  intro same
  have texts := congrArg String.toList same
  rw [toList_mapTaskId, toList_reduceTaskId, List.append_assoc, List.append_assoc,
    List.append_cancel_left_eq] at texts
  simp at texts

theorem mapTaskId_ne_empty (jobId : String) (index : Nat) : mapTaskId jobId index ≠ "" := by
  intro same
  have texts := congrArg String.toList same
  rw [toList_mapTaskId] at texts
  simp at texts

theorem reduceTaskId_ne_empty (rt : Runtime) (jobId : String) (key : Key) : reduceTaskId rt jobId key ≠ "" := by
  intro same
  have texts := congrArg String.toList same
  rw [toList_reduceTaskId] at texts
  simp at texts

/-! ### Dicts whose keys are strings -/

namespace ObjectDict
variable {ν : Type}

/-- A dict keyed by strings, as a dict keyed by objects. -/
def ofStrings (d : Dict String ν) : ObjectDict ν where
  entries := d.entries.map (fun e => (.str e.1, .str e.1, e.2))
  nodup := by
    have keys : (d.entries.map (fun e => ((.str e.1, .str e.1, e.2) : Key × Key × ν))).map Prod.fst =
        (d.entries.map Prod.fst).map Key.str := by simp
    rw [keys]
    exact d.nodup.map (fun _ _ same => Key.str.inj same)

theorem stored_ofStrings (d : Dict String ν) (key : String) :
    Dict.get? (ofStrings d) (.str key) = (d.get? key).map (fun value => (.str key, value)) := by
  unfold Dict.get? ofStrings
  simp only [List.find?_map, Option.map_map, Function.comp_def, Key.str.injEq]
  refine Option.map_congr fun e found => ?_
  have same : e.1 = key := by simpa using List.find?_some found
  rw [same]

theorem get?_ofStrings (d : Dict String ν) (key : String) : (ofStrings d).get? (.str key) = d.get? key := by
  have stored : Dict.get? (ofStrings d) (Key.str key).canon = _ := stored_ofStrings d key
  rw [get?, stored, Option.map_map]
  exact Option.map_id'

theorem set_ofStrings (d : Dict String ν) (key : String) (value : ν) :
    (ofStrings d).set (.str key) value = ofStrings (d.insert key value) := by
  have stored : Dict.get? (ofStrings d) (Key.str key).canon = _ := stored_ofStrings d key
  have first : ((Dict.get? (ofStrings d) (Key.str key).canon).map Prod.fst).getD (.str key) = .str key := by
    rw [stored]
    cases d.get? key <;> rfl
  rw [set, first]
  refine Dict.ext ?_
  have member : Key.str key ∈ Dict.keys (ofStrings d) ↔ key ∈ d.keys := by simp [Dict.keys, ofStrings]
  have canon : (Key.str key).canon = .str key := rfl
  simp only [Dict.insert, canon, member]
  split
  · rename_i present
    simp only [ofStrings, List.map_map]
    refine List.map_congr_left fun e _ => ?_
    by_cases same : e.1 = key <;> simp [same]
  · simp [ofStrings]

theorem items_ofStrings (d : Dict String ν) : (ofStrings d).items = d.entries.map (fun e => (.str e.1, e.2)) := by
  simp [items, Dict.values, ofStrings]

end ObjectDict

/-! ### Results of workers -/

/-- The last response about `t` is a success. -/
def answered (t : TaskId) (responses : List Message) : Bool := (lastAnswer t responses).any Message.succeeded

/-- The payload of the response carries every field of `execute_task(task_type, payload)`. -/
def ResultOf (rt : Runtime) (task : Task) (response : Message) : Prop :=
  ∃ fields, rt.executeTask task.taskType task.payload = .ok fields ∧
    ∀ field ∈ fields, response.get? field.1 = some field.2

/-- A dispatch that answers each task with results of workers, with messages that
are no success, or not at all. Other work may be submitted meanwhile, but not
under the reduce task_ids of this job. -/
structure Serves (rt : Runtime) (jobId : String) (dispatch : DispatchFn) : Prop where
  identified : ∀ s ids, ∀ response ∈ (dispatch s ids).1, response.identified = true
  served : ∀ s ids, ∀ t ∈ ids, ∀ task, s.tasks.get? t = some task → ∀ response,
    lastAnswer t (dispatch s ids).1 = some response → response.succeeded = true → ResultOf rt task response
  unused : ∀ s ids key, s.tasks.get? (reduceTaskId rt jobId (.str key)) = none →
    (dispatch s ids).2.tasks.get? (reduceTaskId rt jobId (.str key)) = none

/-- A success that a worker computed carries what the task's handler returned. -/
theorem ResultOf.ran {task : Task} (result : ResultOf rt task response) (succeeded : response.succeeded = true) :
    ∃ value, response.get? "result" = some value ∧ rt.runTask task.taskType task.payload = .ok value := by
  obtain ⟨fields, executed, carried⟩ := result
  unfold Runtime.executeTask at executed
  split at executed
  · rename_i value ran
    cases executed
    exact ⟨value, carried _ (List.mem_cons_of_mem _ List.mem_cons_self), ran⟩
  · cases executed
    have status : response.get? "status" = some (.str "error") := carried _ List.mem_cons_self
    simp [Message.succeeded, status] at succeeded
  · cases executed

theorem operationFields_ok {operation : ExecutionSpec} (ships : operation.Ships rt) :
    ∃ fields, operationFields rt operation = .ok fields := by
  cases operation with
  | registered name => exact ⟨_, rfl⟩
  | serialized fn =>
    obtain ⟨text, encoded, _⟩ := ships
    exact ⟨_, by rw [operationFields, encoded]⟩

/-! ### The map phase -/

section MapPhase
variable {rt : Runtime} {operation : ExecutionSpec}

/-- A two-element list with a string key, as the map operations return it. -/
def pairVal (pair : String × Val) : Val := .list [.str pair.1, pair.2]

theorem emit_ok {value : Val} {pair : String × Val} (h : operation.mapOne rt value = .ok (pairVal pair)) :
    operation.emit rt value = some pair := by
  simp [ExecutionSpec.emit, h, pairVal]

variable {chunk : List Val} {responses : List Message} {dispatch : DispatchFn}

/-- What the operation returned for a chunk is what it emits for the chunk. -/
theorem mapM_emit {mapped : List Val} (all : chunk.mapM (operation.mapOne rt) = .ok mapped)
    (pairs : ∀ value ∈ chunk, ∀ result, operation.mapOne rt value = .ok result → ∃ pair, result = pairVal pair) :
    ∃ emitted, mapped = emitted.map pairVal ∧ chunk.mapM (operation.emit rt) = some emitted := by
  induction chunk generalizing mapped with
  | nil =>
    cases all
    exact ⟨[], rfl, rfl⟩
  | cons value rest ih =>
    rw [List.mapM_cons] at all
    obtain ⟨result, one, all⟩ := bind_eq_ok.mp all
    obtain ⟨results, others, all⟩ := bind_eq_ok.mp all
    cases all
    obtain ⟨pair, rfl⟩ := pairs value List.mem_cons_self result one
    obtain ⟨emitted, rfl, later⟩ := ih others (fun v member => pairs v (List.mem_cons_of_mem _ member))
    refine ⟨pair :: emitted, rfl, ?_⟩
    rw [List.mapM_cons, emit_ok one, later]
    rfl

theorem shufflePair_ok (grouped : Dict String (List Val)) (pair : String × Val) :
    shufflePair (ObjectDict.ofStrings grouped) (pairVal pair) =
      .ok (ObjectDict.ofStrings (Grouping.push grouped pair)) := by
  have current := ObjectDict.get?_ofStrings grouped pair.1
  simp only [shufflePair, pairVal, Val.elements, Val.key?, current, ObjectDict.set_ofStrings]
  rfl

theorem shufflePairs_ok (grouped : Dict String (List Val)) (emitted : List (String × Val)) :
    (emitted.map pairVal).foldlM shufflePair (ObjectDict.ofStrings grouped) =
      .ok (ObjectDict.ofStrings (emitted.foldl Grouping.push grouped)) := by
  induction emitted generalizing grouped with
  | nil => rfl
  | cons pair rest ih =>
    rw [List.map_cons, List.foldlM_cons, shufflePair_ok]
    exact ih _

/-- A partition enters the groups with the pairs that the operation emits for `kept`. -/
def Enters (rt : Runtime) (operation : ExecutionSpec) (jobId : String) (index : Dict TaskId Message)
    (partition : Nat × TaskId × Task) (kept : List Val) : Prop :=
  ∃ result emitted, intermediateResult jobId index partition.1 partition.2 = .ok result ∧
    kept.mapM (operation.emit rt) = some emitted ∧
    ∀ grouped, shuffleResult (ObjectDict.ofStrings grouped) result =
      .ok (ObjectDict.ofStrings (emitted.foldl Grouping.push grouped))

variable {jobId : String} {index : Dict TaskId Message} {chunks : List (List Val)}

theorem enters_of_answers {i : Nat} {t : TaskId} {task : Task} (indexed : index.get? t = lastAnswer t responses)
    (pairs : ∀ value ∈ chunk, ∀ result, operation.mapOne rt value = .ok result → ∃ pair, result = pairVal pair)
    (served : ∀ response, lastAnswer t responses = some response → response.succeeded = true →
      ∃ mapped, response.get? "result" = some (.list mapped) ∧ chunk.mapM (operation.mapOne rt) = .ok mapped) :
    Enters rt operation jobId index (i, t, task) (if answered t responses then chunk else []) := by
  unfold Enters intermediateResult answered
  simp only [indexed]
  cases last : lastAnswer t responses with
  | none => exact ⟨_, [], rfl, rfl, fun _ => rfl⟩
  | some response =>
    cases succeeded : response.succeeded with
    | false =>
      refine ⟨_, [], by simp only [succeeded, Bool.false_eq_true, if_false]; rfl, ?_, fun _ => rfl⟩
      simp [succeeded]
    | true =>
      obtain ⟨mapped, carried, all⟩ := served response last succeeded
      obtain ⟨emitted, rfl, emits⟩ := mapM_emit all pairs
      refine ⟨_, emitted, by simp only [succeeded, carried, if_true]; rfl, by simpa [succeeded] using emits, ?_⟩
      exact fun grouped => shufflePairs_ok grouped emitted

/-- The partitions enter the groups one after the other. -/
theorem shuffle_of_enters {partitions : List (Nat × TaskId × Task)} {kept : List (List Val)}
    (enters : List.Forall₂ (Enters rt operation jobId index) partitions kept) :
    ∃ results emitted, partitions.mapM (fun entry => intermediateResult jobId index entry.1 entry.2) = .ok results ∧
      kept.flatten.mapM (operation.emit rt) = some emitted ∧
      ∀ grouped, results.foldlM shuffleResult (ObjectDict.ofStrings grouped) =
        .ok (ObjectDict.ofStrings (emitted.foldl Grouping.push grouped)) := by
  induction enters with
  | nil => exact ⟨[], [], rfl, rfl, fun _ => rfl⟩
  | cons first _ ih =>
    obtain ⟨result, emitted, built, emits, shuffled⟩ := first
    obtain ⟨results, others, rest, later, folded⟩ := ih
    refine ⟨result :: results, emitted ++ others, ?_, ?_, fun grouped => ?_⟩
    · rw [List.mapM_cons, built, rest]
      rfl
    · rw [List.flatten_cons, List.mapM_append, emits, later]
      rfl
    · rw [List.foldlM_cons, shuffled, List.foldl_append]
      exact folded _

/-- The elements of the chunks whose last map response is a success, in order. -/
def survivors (jobId : String) (responses : List Message) (chunks : List (List Val)) : List Val :=
  (chunks.mapIdx (fun i chunk => if answered (mapTaskId jobId i) responses then chunk else [])).flatten

theorem survivors_of_all (all : ∀ i < chunks.length, answered (mapTaskId jobId i) responses = true) :
    survivors jobId responses chunks = chunks.flatten := by
  have same :
      chunks.mapIdx (fun i chunk => if answered (mapTaskId jobId i) responses then chunk else []) = chunks := by
    refine List.ext_getElem (by simp) fun i _ bound => ?_
    rw [List.getElem_mapIdx, if_pos (all i bound)]
  rw [survivors, same]

/-- The submissions of the map phase, one for each chunk. -/
def mapSubmissions (jobId : String) (fields : List (Key × Val)) (chunks : List (List Val)) : List Submission :=
  chunks.mapIdx (fun index chunk => ⟨mapTaskId jobId index, "MAP", fields ++ [(.str "data", .list chunk)]⟩)

theorem taskIds_mapSubmissions (jobId : String) (fields : List (Key × Val)) (chunks : List (List Val)) :
    (mapSubmissions jobId fields chunks).map Submission.taskId = (List.range chunks.length).map (mapTaskId jobId) :=
  List.ext_getElem (by simp [mapSubmissions]) (by simp [mapSubmissions])

theorem submit_mapSubmissions (fields : List (Key × Val)) (chunks : List (List Val))
    (fresh : ∀ i, s.tasks.get? (mapTaskId jobId i) = none) :
    let submissions := mapSubmissions jobId fields chunks
    (submitAll s submissions).1 = .ok (submissions.map (fun next => (next.taskId, next.task))) ∧
    (∀ next ∈ submissions, (submitAll s submissions).2.tasks.get? next.taskId = some next.task) ∧
    ∀ t ∉ submissions.map Submission.taskId, (submitAll s submissions).2.tasks.get? t = s.tasks.get? t := by
  refine submitAll_fresh ?_ fun next member => ?_
  · rw [taskIds_mapSubmissions]
    exact List.nodup_range.map (fun _ _ same => mapTaskId_injective same)
  · obtain ⟨i, _, rfl⟩ := List.mem_mapIdx.mp member
    exact ⟨mapTaskId_ne_empty jobId i, by simp, fresh i⟩

/-- The tasks of the map phase as `build_map_job` returns them. -/
def mapTasks (jobId : String) (fields : List (Key × Val)) (chunks : List (List Val)) : List (TaskId × Task) :=
  (mapSubmissions jobId fields chunks).map (fun next => (next.taskId, next.task))

/-- Each partition of a dispatched map phase enters the groups if its last response
is a success. What the task objects say by then does not matter. -/
theorem partitions_enter {s₁ : Scheduler} {fields : List (Key × Val)} (serves : Serves rt jobId dispatch)
    (ships : operation.Ships rt) (chosen : operationFields rt operation = .ok fields)
    (pairs : ∀ value ∈ chunks.flatten, ∀ result, operation.mapOne rt value = .ok result →
      ∃ pair, result = pairVal pair)
    (stored : ∀ next ∈ mapSubmissions jobId fields chunks, s₁.tasks.get? next.taskId = some next.task)
    (indexed : ∀ t, index.get? t = lastAnswer t (dispatch s₁ ((mapTasks jobId fields chunks).map Prod.fst)).1)
    (record : TaskId × Task → Task) :
    List.Forall₂ (Enters rt operation jobId index)
      (((mapTasks jobId fields chunks).map (fun task => (task.1, record task))).mapIdx (fun i task => (i, task)))
      (chunks.mapIdx (fun i chunk => if answered (mapTaskId jobId i)
        (dispatch s₁ ((mapTasks jobId fields chunks).map Prod.fst)).1 then chunk else [])) := by
  refine List.forall₂_iff_get.mpr ⟨by simp [mapTasks, mapSubmissions], fun i _ bound => ?_⟩
  have inside : i < chunks.length := by simpa using bound
  have member : (⟨mapTaskId jobId i, "MAP", fields ++ [(.str "data", .list chunks[i])]⟩ : Submission) ∈
      mapSubmissions jobId fields chunks := List.mem_mapIdx.mpr ⟨i, inside, rfl⟩
  have listed : mapTaskId jobId i ∈ (mapTasks jobId fields chunks).map Prod.fst :=
    List.mem_map.mpr ⟨_, List.mem_map.mpr ⟨_, member, rfl⟩, rfl⟩
  have result := serves.served s₁ _ _ listed _ (stored _ member)
  simp only [List.get_eq_getElem, List.getElem_mapIdx, List.getElem_map, mapTasks, mapSubmissions]
  refine enters_of_answers (indexed _) ?_ fun response last succeeded => ?_
  · exact fun value within => pairs value (List.mem_flatten.mpr ⟨_, List.getElem_mem inside, within⟩)
  · obtain ⟨value, carried, ran⟩ := (result response last succeeded).ran succeeded
    obtain ⟨mapped, rfl, all⟩ := executeMap_ok ships chosen ran
    exact ⟨mapped, carried, all⟩

/-- The map phase of a job with new task_ids leaves the groups of what the
operation emits for the surviving elements. -/
theorem mapPhase {data : List Val} {numPartitions : Int} (serves : Serves rt jobId dispatch)
    (ships : operation.Ships rt) (cut : partition data numPartitions = .ok chunks)
    (pairs : ∀ value ∈ chunks.flatten, ∀ result, operation.mapOne rt value = .ok result →
      ∃ pair, result = pairVal pair) (fresh : ∀ i, s.tasks.get? (mapTaskId jobId i) = none) :
    ∃ tasks s₁ emitted, buildMapJob rt s jobId operation data numPartitions = (.ok tasks, s₁) ∧
      (∀ key, s₁.tasks.get? (reduceTaskId rt jobId (.str key)) = s.tasks.get? (reduceTaskId rt jobId (.str key))) ∧
      (∀ record : TaskId × Task → Task,
        (buildIntermediateResults jobId (tasks.map (fun task => (task.1, record task)))
          (dispatch s₁ (tasks.map Prod.fst)).1).bind shuffle = .ok (ObjectDict.ofStrings (Grouping.group emitted))) ∧
      (survivors jobId (dispatch s₁ (tasks.map Prod.fst)).1 chunks).mapM (operation.emit rt) = some emitted := by
  obtain ⟨fields, chosen⟩ := operationFields_ok ships
  obtain ⟨all, stored, others⟩ := submit_mapSubmissions fields chunks fresh
  have built : buildMapJob rt s jobId operation data numPartitions =
      (.ok (mapTasks jobId fields chunks), (submitAll s (mapSubmissions jobId fields chunks)).2) := by
    simp only [buildMapJob, chosen, cut]
    exact Prod.ext all rfl
  generalize (submitAll s (mapSubmissions jobId fields chunks)).2 = s₁ at built stored others
  obtain ⟨index, found, indexed⟩ := index_ok (serves.identified s₁ ((mapTasks jobId fields chunks).map Prod.fst))
  have enters := partitions_enter serves ships chosen pairs stored indexed
  obtain ⟨_, emitted, _, emits, _⟩ := shuffle_of_enters (enters Prod.snd)
  refine ⟨_, s₁, emitted, built, fun key => others _ ?_, fun record => ?_, emits⟩
  · rw [taskIds_mapSubmissions, List.mem_map]
    rintro ⟨i, _, same⟩
    exact mapTaskId_ne_reduceTaskId rt jobId (.str key) i same.symm
  · obtain ⟨results, again, mapped, same, folded⟩ := shuffle_of_enters (enters record)
    cases emits.symm.trans same
    have intermediate : buildIntermediateResults jobId
        ((mapTasks jobId fields chunks).map (fun task => (task.1, record task)))
        (dispatch s₁ ((mapTasks jobId fields chunks).map Prod.fst)).1 = .ok results := by
      rw [buildIntermediateResults, found]
      exact mapped
    rw [intermediate]
    exact folded ∅

end MapPhase

/-! ### The reduce phase -/

section ReducePhase
variable {rt : Runtime} {operation : ExecutionSpec} {jobId : String}
variable {index : Dict TaskId Message} {responses : List Message}

/-- Formatting a string does not raise. -/
theorem reduceRequests_ofStrings (fields : List (Key × Val)) (grouped : Dict String (List Val)) :
    (ObjectDict.ofStrings grouped).items.map (reduceRequest rt jobId fields) =
      ((ObjectDict.ofStrings grouped).items.map (reduceSubmission rt jobId fields)).map .ok := by
  simp [ObjectDict.items_ofStrings, reduceRequest, keyFormatError]

theorem submit_reduce (fields : List (Key × Val)) (grouped : Dict String (List Val))
    (fresh : ∀ key, s.tasks.get? (reduceTaskId rt jobId (.str key)) = none) :
    let requests := (ObjectDict.ofStrings grouped).items.map (reduceRequest rt jobId fields)
    (∃ tasks, (submitEach s requests).1 = .ok tasks) ∧
    ∀ key values, grouped.get? key = some values →
      (submitEach s requests).2.tasks.get? (reduceTaskId rt jobId (.str key)) =
        some ⟨"REDUCE", fields ++ [(.str "key", .str key), (.str "values", .list values)], .pending, none, 0⟩ := by
  intro requests
  let submissions := (ObjectDict.ofStrings grouped).items.map (reduceSubmission rt jobId fields)
  rw [show requests = submissions.map .ok from reduceRequests_ofStrings fields grouped, submitEach_ok]
  have shape : submissions = grouped.entries.map (fun e => ⟨reduceTaskId rt jobId (.str e.1), "REDUCE",
      fields ++ [(.str "key", .str e.1), (.str "values", .list e.2)]⟩) := by
    simp [submissions, reduceSubmission, ObjectDict.items_ofStrings, Key.val]
  have ids : submissions.map Submission.taskId = grouped.keys.map (fun key => reduceTaskId rt jobId (.str key)) := by
    simp [shape, Dict.keys]
  have different : (submissions.map Submission.taskId).Nodup := by
    rw [ids]
    exact grouped.nodup.map (fun _ _ same => reduceTaskId_injective same)
  obtain ⟨all, stored, _⟩ := submitAll_fresh (s := s) different (by
    intro next member
    rw [shape] at member
    obtain ⟨e, _, rfl⟩ := List.mem_map.mp member
    exact ⟨reduceTaskId_ne_empty rt jobId (.str e.1), by simp, fresh e.1⟩)
  refine ⟨⟨_, all⟩, fun key values held => ?_⟩
  refine stored ⟨_, _, _⟩ ?_
  rw [shape]
  exact List.mem_map.mpr ⟨(key, values), Dict.mem_entries.mpr held, rfl⟩

/-- One turn of `collect_reduce_results`: the value of an answered task is entered,
any other task ends the collection with ValueError. -/
theorem collectReduceResult_cases {key : Key} {t : TaskId} {Q : Val → Prop}
    (indexed : index.get? t = lastAnswer t responses) (start : ObjectDict Val)
    (carried : ∀ response, lastAnswer t responses = some response → response.succeeded = true →
      ∃ value, response.get? "result" = some value ∧ Q value) :
    (answered t responses = true ∧ ∃ value, Q value ∧
      collectReduceResult rt index start (key, t) = .ok (start.set key value)) ∨
    (answered t responses = false ∧
      ∃ text, collectReduceResult rt index start (key, t) = .error (.valueError text)) := by
  unfold collectReduceResult answered
  simp only [indexed]
  cases last : lastAnswer t responses with
  | none => exact .inr ⟨rfl, _, rfl⟩
  | some response =>
    cases succeeded : response.succeeded with
    | false => exact .inr ⟨succeeded, _, by simp only [succeeded, Bool.false_eq_true, if_false]; rfl⟩
    | true =>
      obtain ⟨value, holds, meant⟩ := carried response last succeeded
      exact .inl ⟨succeeded, value, meant, by simp only [succeeded, holds, if_true]⟩

/-- The whole collection: all values, or ValueError. -/
theorem collect_cases {keys : List String} {Q : String → Val → Prop}
    (indexed : ∀ t, index.get? t = lastAnswer t responses)
    (carried : ∀ key ∈ keys, ∀ response, lastAnswer (reduceTaskId rt jobId (.str key)) responses = some response →
      response.succeeded = true → ∃ value, response.get? "result" = some value ∧ Q key value)
    (start : Dict String Val) :
    let outcome := (keys.map (fun key => (Key.str key, reduceTaskId rt jobId (.str key)))).foldlM
      (collectReduceResult rt index) (ObjectDict.ofStrings start)
    ((∀ key ∈ keys, answered (reduceTaskId rt jobId (.str key)) responses = true) ∧
      ∃ table, outcome = .ok (ObjectDict.ofStrings table) ∧
        (∀ key ∈ keys, ∃ value, table.get? key = some value ∧ Q key value) ∧
        ∀ key ∉ keys, table.get? key = start.get? key) ∨
    ((∃ key ∈ keys, answered (reduceTaskId rt jobId (.str key)) responses = false) ∧
      ∃ text, outcome = .error (.valueError text)) := by
  induction keys generalizing start with
  | nil => exact .inl ⟨nofun, start, rfl, nofun, fun _ _ => rfl⟩
  | cons first rest ih =>
    have later := fun key (member : key ∈ rest) => carried key (List.mem_cons_of_mem first member)
    rcases collectReduceResult_cases (indexed _) (ObjectDict.ofStrings start)
        (carried first List.mem_cons_self) with ⟨answers, value, meant, entered⟩ | ⟨fails, text, raised⟩
    · rw [ObjectDict.set_ofStrings] at entered
      rw [List.map_cons, List.foldlM_cons, entered]
      rcases ih later (start.insert first value) with
        ⟨all, table, collected, values, others⟩ | ⟨⟨key, member, fails⟩, text, raised⟩
      · refine .inl ⟨List.forall_mem_cons.mpr ⟨answers, all⟩, table, collected, fun key member => ?_, ?_⟩
        · by_cases again : key ∈ rest
          · exact values key again
          · obtain rfl : key = first := (List.mem_cons.mp member).resolve_right again
            exact ⟨value, by rw [others key again, Dict.get?_insert_self], meant⟩
        · intro key outside
          rw [List.mem_cons, not_or] at outside
          rw [others key outside.2, Dict.get?_insert, if_neg outside.1]
      · exact .inr ⟨⟨key, List.mem_cons_of_mem first member, fails⟩, text, raised⟩
    · refine .inr ⟨⟨first, List.mem_cons_self, fails⟩, text, ?_⟩
      rw [List.map_cons, List.foldlM_cons, raised]
      rfl

/-- The dict maps exactly the keys of the pairs, each to its reduced values. -/
structure Reduced (rt : Runtime) (operation : ExecutionSpec) (pairs : List (String × Val)) (result : ObjectDict Val) :
    Prop where
  keys : ∀ key, key ∈ result.items.map Prod.fst ↔ ∃ k ∈ pairs.map Prod.fst, key = .str k
  values : ∀ k ∈ pairs.map Prod.fst, ∃ value, result.get? (.str k) = some value ∧
    operation.reduceAll rt (Grouping.valuesOf k pairs) = .ok value

theorem Reduced.of_table {pairs : List (String × Val)} {table : Dict String Val}
    (values : ∀ k ∈ pairs.map Prod.fst, ∃ value, table.get? k = some value ∧
      operation.reduceAll rt (Grouping.valuesOf k pairs) = .ok value)
    (others : ∀ k ∉ pairs.map Prod.fst, table.get? k = none) :
    Reduced rt operation pairs (ObjectDict.ofStrings table) where
  keys := by
    intro key
    have listed : (ObjectDict.ofStrings table).items.map Prod.fst = table.keys.map Key.str := by
      simp [ObjectDict.items_ofStrings, Dict.keys]
    have same : ∀ k, k ∈ table.keys ↔ k ∈ pairs.map Prod.fst := by
      intro k
      rw [← Dict.get?_isSome]
      by_cases member : k ∈ pairs.map Prod.fst
      · obtain ⟨value, held, _⟩ := values k member
        simp [held, member]
      · rw [others k member]
        simp [member]
    rw [listed, List.mem_map]
    exact exists_congr fun k => by rw [same k, eq_comm]
  values := by
    intro k member
    rw [ObjectDict.get?_ofStrings]
    exact values k member

/-- The reduce phase over the groups of the emitted pairs ends with their reduced
values, or with ValueError if some reduce task was not answered. -/
theorem reducePhase {dispatch : DispatchFn} (serves : Serves rt jobId dispatch) (ships : operation.Ships rt)
    (emitted : List (String × Val)) (fresh : ∀ key, s.tasks.get? (reduceTaskId rt jobId (.str key)) = none) :
    ∃ tasks s₃,
      buildReduceJob rt s jobId (ObjectDict.ofStrings (Grouping.group emitted)) operation = (.ok tasks, s₃) ∧
      (((∀ k ∈ emitted.map Prod.fst,
          answered (reduceTaskId rt jobId (.str k)) (dispatch s₃ (tasks.map Prod.snd)).1 = true) ∧
          ∃ result, collectReduceResults rt tasks (dispatch s₃ (tasks.map Prod.snd)).1 = .ok result ∧
            Reduced rt operation emitted result) ∨
        ((∃ k ∈ emitted.map Prod.fst,
            answered (reduceTaskId rt jobId (.str k)) (dispatch s₃ (tasks.map Prod.snd)).1 = false) ∧
          ∃ text, collectReduceResults rt tasks (dispatch s₃ (tasks.map Prod.snd)).1 =
            .error (.valueError text))) := by
  obtain ⟨fields, chosen⟩ := operationFields_ok ships
  obtain ⟨⟨_, all⟩, stored⟩ := submit_reduce fields (Grouping.group emitted) fresh
  let tasks := (Grouping.group emitted).keys.map (fun key => (Key.str key, reduceTaskId rt jobId (.str key)))
  have built : ∃ s₃, buildReduceJob rt s jobId (ObjectDict.ofStrings (Grouping.group emitted)) operation =
      (.ok tasks, s₃) ∧ ∀ key values, (Grouping.group emitted).get? key = some values →
        s₃.tasks.get? (reduceTaskId rt jobId (.str key)) =
          some ⟨"REDUCE", fields ++ [(.str "key", .str key), (.str "values", .list values)], .pending, none, 0⟩ := by
    refine ⟨_, ?_, stored⟩
    simp only [buildReduceJob, chosen, all]
    simp [Except.map, tasks, ObjectDict.items_ofStrings, Dict.keys]
  obtain ⟨s₃, built, stored⟩ := built
  refine ⟨tasks, s₃, built, ?_⟩
  obtain ⟨index, found, indexed⟩ := index_ok (serves.identified s₃ (tasks.map Prod.snd))
  have carried : ∀ key ∈ (Grouping.group emitted).keys, ∀ response,
      lastAnswer (reduceTaskId rt jobId (.str key)) (dispatch s₃ (tasks.map Prod.snd)).1 = some response →
      response.succeeded = true → ∃ value, response.get? "result" = some value ∧
        operation.reduceAll rt (Grouping.valuesOf key emitted) = .ok value := by
    intro key member response last succeeded
    have held : (Grouping.group emitted).get? key = some (Grouping.valuesOf key emitted) := by
      rw [Grouping.get?_group, if_pos (Grouping.mem_keys_group.mp member)]
    have listed : reduceTaskId rt jobId (.str key) ∈ tasks.map Prod.snd := by
      simpa [tasks] using ⟨key, member, rfl⟩
    obtain ⟨value, result, ran⟩ :=
      (serves.served s₃ _ _ listed _ (stored key _ held) response last succeeded).ran succeeded
    exact ⟨value, result, executeReduce_ok ships chosen ran⟩
  have collected : collectReduceResults rt tasks (dispatch s₃ (tasks.map Prod.snd)).1 =
      tasks.foldlM (collectReduceResult rt index) .empty := by
    rw [collectReduceResults, found]
    rfl
  rw [collected]
  have keys : ∀ k, k ∈ (Grouping.group emitted).keys ↔ k ∈ emitted.map Prod.fst := fun k => Grouping.mem_keys_group
  rcases collect_cases indexed carried ∅ with ⟨answers, table, ended, values, others⟩ | ⟨⟨key, member, fails⟩, raised⟩
  · refine .inl ⟨fun k member => answers k ((keys k).mpr member), _, ended, ?_⟩
    exact .of_table (fun k member => values k ((keys k).mpr member))
      (fun k outside => others k (mt (keys k).mp outside))
  · exact .inr ⟨⟨key, (keys key).mp member, fails⟩, raised⟩

end ReducePhase

/-! ### The whole job -/

/-- MapReduce is its sequential meaning. `D` are the elements of the chunks whose
last map response is a success: a run with an answer to every reduce task returns
the reduced groups of what is emitted over `D`, any other run raises ValueError,
and with an answer to every map task `D` is the data, however it was cut. -/
theorem runMapReduce_sequential {rt : Runtime} {s : Scheduler} {dispatch : DispatchFn} {jobId : String}
    {data : List Val} {mapOperation reduceOperation : ExecutionSpec} {numPartitions : Int}
    (positive : 1 ≤ numPartitions) (freshMap : ∀ i, s.tasks.get? (mapTaskId jobId i) = none)
    (freshReduce : ∀ key, s.tasks.get? (reduceTaskId rt jobId (.str key)) = none)
    (mapShips : mapOperation.Ships rt) (reduceShips : reduceOperation.Ships rt)
    (pairs : ∀ value ∈ data, ∀ result, mapOperation.mapOne rt value = .ok result →
      ∃ key emitted, result = .list [.str key, emitted])
    (serves : Serves rt jobId dispatch) :
    let run := runMapReduce rt s dispatch jobId data mapOperation reduceOperation numPartitions
    ∃ chunks emitted, partition data numPartitions = .ok chunks ∧
      (survivors jobId run.mapResponses chunks).mapM (mapOperation.emit rt) = some emitted ∧
      ((∀ k ∈ emitted.map Prod.fst, answered (reduceTaskId rt jobId (.str k)) run.reduceResponses = true) →
        ∃ result, run.outcome = .ok result ∧ Reduced rt reduceOperation emitted result) ∧
      ((∃ k ∈ emitted.map Prod.fst, answered (reduceTaskId rt jobId (.str k)) run.reduceResponses = false) →
        ∃ text, run.outcome = .error (.valueError text)) ∧
      ((∀ i < chunks.length, answered (mapTaskId jobId i) run.mapResponses = true) →
        data.mapM (mapOperation.emit rt) = some emitted) := by
  obtain ⟨chunks, cut, whole⟩ : ∃ chunks, partition data numPartitions = .ok chunks ∧ chunks.flatten = data :=
    partition_flatten positive
  obtain ⟨tasks, s₁, emitted, built, kept, grouped, emits⟩ := mapPhase serves mapShips cut (by
    intro value member result mapped
    rw [whole] at member
    obtain ⟨key, x, rfl⟩ := pairs value member result mapped
    exact ⟨(key, x), rfl⟩) freshMap
  obtain ⟨reduceTasks, s₃, submitted, ending⟩ := reducePhase serves reduceShips emitted
    (fun key => serves.unused s₁ (tasks.map Prod.fst) key ((kept key).trans (freshReduce key)))
  intro run
  have ran : run = ⟨(dispatch s₁ (tasks.map Prod.fst)).1, (dispatch s₃ (reduceTasks.map Prod.snd)).1,
      collectReduceResults rt reduceTasks (dispatch s₃ (reduceTasks.map Prod.snd)).1,
      (dispatch s₃ (reduceTasks.map Prod.snd)).2⟩ := by
    simp only [run, runMapReduce, built, grouped, submitted]
  rw [ran]
  refine ⟨chunks, emitted, cut, emits, ?_, ?_, ?_⟩
  · intro answers
    rcases ending with ⟨_, done⟩ | ⟨⟨k, member, fails⟩, _⟩
    · exact done
    · exact absurd (answers k member) (by simp [fails])
  · rintro ⟨k, member, fails⟩
    rcases ending with ⟨answers, _⟩ | ⟨_, raised⟩
    · exact absurd (answers k member) (by simp [fails])
    · exact raised
  · intro all
    rw [survivors_of_all all, whole] at emits
    exact emits

/-! ### A dispatch that runs every task once -/

/-- What a worker returns for the task, if no exception leaves `execute_task`. -/
def resultMessage (rt : Runtime) (s : Scheduler) (t : TaskId) : Option Message := do
  let task ← s.tasks.get? t
  let fields ← (rt.executeTask task.taskType task.payload).toOption
  some ⟨.taskResult, "", ("task_id", .str t) :: fields⟩

def runInOrder (rt : Runtime) : DispatchFn := fun s ids => (ids.filterMap (resultMessage rt s), s)

theorem resultMessage_some {t : TaskId} (h : resultMessage rt s t = some response) :
    response.get? "task_id" = some (.str t) ∧
      ∃ task, s.tasks.get? t = some task ∧ ResultOf rt task response := by
  simp only [resultMessage, bind, Option.bind_eq_some_iff, Option.some.injEq] at h
  obtain ⟨task, held, fields, executed, rfl⟩ := h
  have ran : rt.executeTask task.taskType task.payload = .ok fields := by
    cases outcome : rt.executeTask task.taskType task.payload <;> simp_all [Except.toOption]
  refine ⟨by simp [Message.get?, field], task, held, fields, ran, ?_⟩
  unfold Runtime.executeTask at ran
  split at ran <;> cases ran <;> simp [Message.get?, field]

theorem runInOrder_serves (rt : Runtime) (jobId : String) : Serves rt jobId (runInOrder rt) where
  identified := by
    intro s ids response member
    obtain ⟨t, _, returned⟩ := List.mem_filterMap.mp member
    simp [Message.identified, (resultMessage_some returned).1, Val.lookup]
  served := by
    intro s ids t _ task held response last _
    obtain ⟨member, about⟩ := List.mem_filter.mp (List.mem_of_getLast? last)
    obtain ⟨u, _, returned⟩ := List.mem_filterMap.mp member
    obtain ⟨named, other, record, result⟩ := resultMessage_some returned
    have same : u = t := by simpa [Message.about, named] using about
    rw [same, held] at record
    cases record
    exact result
  unused := fun _ _ _ unused => unused

/-- Counting the words of "a b a" in two partitions. -/
theorem wordCount_counted :
    ∃ result, (runMapReduce bareRuntime ⟨∅, ∅⟩ (runInOrder bareRuntime) "wc" [.str "a", .str "b", .str "a"]
      (.registered "WORD_COUNT") (.registered "SUM") 2).outcome = .ok result ∧
      result.get? (.str "a") = some (.int 2) ∧ result.get? (.str "b") = some (.int 1) := by
  obtain ⟨chunks, emitted, cut, _, reduced, _, all⟩ := @runMapReduce_sequential bareRuntime ⟨∅, ∅⟩
    (runInOrder bareRuntime) "wc" [.str "a", .str "b", .str "a"] (.registered "WORD_COUNT") (.registered "SUM") 2
    (by decide) (fun _ => rfl) (fun _ => rfl) trivial trivial
    (by
      intro value member result mapped
      simp only [List.mem_cons, List.not_mem_nil, or_false] at member
      rcases member with rfl | rfl | rfl <;> cases mapped <;> exact ⟨_, _, rfl⟩)
    (runInOrder_serves bareRuntime "wc")
  have two : chunks = [[.str "a", .str "b"], [.str "a"]] := Except.ok.inj (cut.symm.trans rfl)
  subst two
  cases all (by decide)
  obtain ⟨result, returned, meant⟩ := reduced (by decide)
  refine ⟨result, returned, ?_, ?_⟩
  · obtain ⟨value, held, sum⟩ := meant.values "a" (by decide)
    cases sum
    exact held
  · obtain ⟨value, held, sum⟩ := meant.values "b" (by decide)
    cases sum
    exact held

end DistributedCompute
