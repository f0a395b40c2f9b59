import DistributedCompute.EngineRuns
import DistributedCompute.JobSubmission

/-! MapReduce on the engine against its sequential meaning. Elements, results and groups
cross the wire as JSON on their way to a worker and back, so the meaning of an operation
is taken between two crossings; nothing else of the distribution can be seen in the
result of a job, under any interleaving, with any number of retries and other jobs. -/
namespace Py

/-! ### Values that cross the wire -/

/-- The value as the other end reads it. -/
def Val.overWire (floatRepr : BitVec 64 → String) (v : Val) : Val := (v.document floatRepr).loads

namespace Val
variable {floatRepr : BitVec 64 → String}

@[simp] theorem overWire_list (items : List Val) :
    (Val.list items).overWire floatRepr = .list (items.map (overWire floatRepr)) := by
  simp [overWire, Val.document, Json.loads]

@[simp] theorem overWire_str (s : String) : (Val.str s).overWire floatRepr = .str s := by
  simp [overWire, Val.document, Json.loads]

/-- What has crossed the wire once does not change any more. -/
theorem overWire_overWire (v : Val) : (v.overWire floatRepr).overWire floatRepr = v.overWire floatRepr := by
  induction v using Val.nested with
  | scalar v flat =>
    cases v with
    | list | tuple | dict => cases flat
    | none | bool | int | float | str | object => simp [overWire, Val.document, Json.loads]
  | list items ih =>
    simp only [overWire_list, List.map_map, list.injEq]
    exact List.map_congr_left ih
  | tuple items ih =>
    have same : (Val.tuple items).overWire floatRepr = (Val.list items).overWire floatRepr := by
      simp [overWire, Val.document]
    simp only [same, overWire_list, List.map_map, list.injEq]
    exact List.map_congr_left ih
  | dict entries ih =>
    let read := Dict.ofList (entries.map (fun e => (e.1.memberName floatRepr, e.2.overWire floatRepr)))
    have once : (Val.dict entries).overWire floatRepr = .dict (read.entries.map (fun e => (.str e.1, e.2))) := by
      simp [overWire, Val.document, Json.loads, read, Function.comp_def]
    have strings : ∀ e ∈ read.entries.map (fun e => ((.str e.1, e.2) : Key × Val)), e.1.isStr = true := by
      intro e member
      obtain ⟨_, _, rfl⟩ := List.mem_map.mp member
      rfl
    have unique : ((read.entries.map (fun e => ((.str e.1, e.2) : Key × Val))).map (fun e => e.1.canon)).Nodup := by
      rw [List.map_map]
      have keys : read.entries.map ((fun e : Key × Val => e.1.canon) ∘ fun e : String × Val => (.str e.1, e.2)) =
          (read.entries.map Prod.fst).map Key.str := by simp [Key.canon]
      rw [keys]
      exact read.nodup.map (fun _ _ same => Key.str.inj same)
    rw [once, overWire, loads_dict strings unique, Val.dict.injEq]
    conv_rhs => rw [← List.map_id (read.entries.map _)]
    apply List.map_congr_left
    intro e member
    obtain ⟨field, listed, rfl⟩ := List.mem_map.mp member
    obtain ⟨entry, inside, rfl⟩ := List.mem_map.mp (Dict.mem_of_ofList listed)
    exact Prod.ext rfl (ih entry inside)

end Val
end Py

namespace DistributedCompute
open Py Transition Raising
variable {floatRepr : BitVec 64 → String} {rt : Runtime}

/-- Fields under different strings keep their names and their order on the wire. -/
theorem wireEntries_strings {entries : List (Key × Val)} (strings : ∀ e ∈ entries, e.1.isStr = true)
    (unique : (entries.map (fun e => e.1.canon)).Nodup) :
    wireEntries floatRepr entries = entries.map (fun e => (e.1, e.2.overWire floatRepr)) :=
  Val.dict.inj ((loads_dict_document entries).symm.trans (Val.loads_dict strings unique))

/-! ### Operations between two crossings -/

namespace ExecutionSpec

/-- The value, or an exception: a job does not see which one a worker reported. -/
def remote : Except Raised Val → Except UserExn Val
  | .ok value => .ok value
  | .error _ => .error ⟨"ExecutionError", .ok ""⟩

/-- The map operation on the element as the worker reads it, and its result as the
master reads it. -/
def mapOverWire (floatRepr : BitVec 64 → String) (rt : Runtime) (operation : ExecutionSpec) : ExecutionSpec :=
  .serialized fun arguments _ =>
    match arguments with
    | [value] => remote (Val.overWire floatRepr <$> operation.mapOne rt (value.overWire floatRepr))
    | _ => .error ⟨"TypeError", .ok ""⟩

/-- The reduce operation on values that have crossed the wire before, and its result as
the master reads it. -/
def reduceOverWire (floatRepr : BitVec 64 → String) (rt : Runtime) (operation : ExecutionSpec) : ExecutionSpec :=
  .serialized fun arguments _ =>
    match arguments with
    | [.list values] => remote (Val.overWire floatRepr <$> operation.reduceAll rt values)
    | _ => .error ⟨"TypeError", .ok ""⟩

variable {value : Val} {operation : ExecutionSpec}

theorem userResult_remote {outcome : Except Raised Val} :
    Runtime.userResult (remote outcome) = .ok value ↔ outcome = .ok value := by
  cases outcome with
  | ok => exact Iff.rfl
  | error => exact ⟨nofun, nofun⟩

variable {result : Val}

theorem mapOne_mapOverWire :
    (operation.mapOverWire floatRepr rt).mapOne rt value = .ok result ↔
      ∃ returned, operation.mapOne rt (value.overWire floatRepr) = .ok returned ∧
        returned.overWire floatRepr = result := by
  rw [mapOverWire, mapOne, userResult_remote, map_eq_ok]

theorem reduceAll_reduceOverWire {values : List Val} :
    (operation.reduceOverWire floatRepr rt).reduceAll rt values = .ok result ↔
      ∃ returned, operation.reduceAll rt values = .ok returned ∧ returned.overWire floatRepr = result := by
  rw [reduceOverWire, reduceAll, userResult_remote, map_eq_ok]

/-- What is emitted has crossed the wire. -/
theorem overWire_of_emit {pair : String × Val}
    (emitted : (operation.mapOverWire floatRepr rt).emit rt value = some pair) :
    pair.2.overWire floatRepr = pair.2 := by
  unfold emit at emitted
  split at emitted
  · rename_i key x mapped
    cases emitted
    obtain ⟨returned, _, same⟩ := mapOne_mapOverWire.mp mapped
    have twice : (returned.overWire floatRepr).overWire floatRepr = returned.overWire floatRepr :=
      Val.overWire_overWire returned
    rw [same] at twice
    simpa using twice
  · cases emitted

end ExecutionSpec

/-! ### The tasks of a job on a worker -/

section Execution
variable {operation : ExecutionSpec} {fields : List (Key × Val)}
variable {value : Val}

/-- The fields that select the operation are texts, so a worker reads them as they are. -/
theorem wireEntries_fields {rest : List (Key × Val)} (chosen : operationFields rt operation = .ok fields)
    (strings : ∀ e ∈ rest, e.1.isStr = true)
    (unique :
      ([Key.str "operation", .str "execution_mode", .str "callable"] ++ rest.map (fun e => e.1.canon)).Nodup) :
    wireEntries floatRepr (fields ++ rest) = fields ++ rest.map (fun e => (e.1, e.2.overWire floatRepr)) := by
  have texts : (∀ e ∈ fields, e.1.isStr = true) ∧
      (fields.map (fun e => e.1.canon)).Sublist [.str "operation", .str "execution_mode", .str "callable"] ∧
      fields.map (fun e => (e.1, e.2.overWire floatRepr)) = fields := by
    cases operation with
    | registered name =>
      cases chosen
      exact ⟨by simp [Key.isStr], by simp [Key.canon], by simp⟩
    | serialized fn =>
      rw [operationFields] at chosen
      split at chosen
      · cases chosen
      · cases chosen
        exact ⟨by simp [Key.isStr], .cons _ (.refl _), by simp⟩
  obtain ⟨named, keys, same⟩ := texts
  rw [wireEntries_strings, List.map_append, same]
  · exact fun e member => (List.mem_append.mp member).elim (named e) (strings e)
  · rw [List.map_append]
    exact unique.sublist (keys.append_right _)

/-- What a successful MAP task of a job returns is what the operation makes of its chunk
between two crossings. -/
theorem mapTask_overWire {chunk : List Val} (ships : operation.Ships rt)
    (chosen : operationFields rt operation = .ok fields)
    (ran : rt.runTask "MAP" (wireEntries floatRepr (fields ++ [(.str "data", .list chunk)])) = .ok value) :
    ∃ mapped, value.overWire floatRepr = .list mapped ∧
      chunk.mapM ((operation.mapOverWire floatRepr rt).mapOne rt) = .ok mapped := by
  rw [wireEntries_fields chosen (by simp [Key.isStr]) (by simp [Key.canon])] at ran
  simp only [List.map_cons, List.map_nil, Val.overWire_list] at ran
  obtain ⟨returned, rfl, all⟩ := executeMap_ok ships chosen ran
  refine ⟨returned.map (Val.overWire floatRepr), Val.overWire_list returned, mapM_ok_iff.mpr ?_⟩
  rw [List.forall₂_map_right_iff]
  rw [mapM_ok_iff, List.forall₂_map_left_iff] at all
  exact all.imp fun element result one => ExecutionSpec.mapOne_mapOverWire.mpr ⟨result, one, rfl⟩

/-- What a successful REDUCE task of a job returns, for values that have crossed the wire. -/
theorem reduceTask_overWire {key : String} {values : List Val} (ships : operation.Ships rt)
    (chosen : operationFields rt operation = .ok fields) (crossed : ∀ v ∈ values, v.overWire floatRepr = v)
    (ran : rt.runTask "REDUCE"
      (wireEntries floatRepr (fields ++ [(.str "key", .str key), (.str "values", .list values)])) = .ok value) :
    (operation.reduceOverWire floatRepr rt).reduceAll rt values = .ok (value.overWire floatRepr) := by
  have same : values.map (Val.overWire floatRepr) = values :=
    (List.map_congr_left (g := id) crossed).trans (List.map_id values)
  rw [wireEntries_fields chosen (by simp [Key.isStr]) (by simp [Key.canon])] at ran
  simp only [List.map_cons, List.map_nil, Val.overWire_list, Val.overWire_str, same] at ran
  exact ExecutionSpec.reduceAll_reduceOverWire.mpr ⟨value, executeReduce_ok ships chosen ran, rfl⟩

end Execution
/-! ### The two phases -/

theorem identified_of_about {t : TaskId} {response : Message} (about : response.about t = true) :
    response.identified = true := by
  unfold Message.about at about
  split at about
  · rename_i u named
    simp [Message.identified, named, Val.lookup]
  · cases about

theorem flatten_of_partition {data : List Val} {numPartitions : Int} {chunks : List (List Val)}
    (cut : partition data numPartitions = .ok chunks) : chunks.flatten = data := by
  have positive : 1 ≤ numPartitions := by
    by_contra small
    rw [partition, if_pos (by omega)] at cut
    cases cut
  obtain ⟨_, same, whole⟩ : ∃ whole, partition data numPartitions = .ok whole ∧ whole.flatten = data :=
    partition_flatten positive
  exact Except.ok.inj (same.symm.trans cut) ▸ whole

namespace JobSpec

/-- The operations reach the workers, and what the map operation returns is read as a pair
whose key is a string. -/
structure Admissible (floatRepr : BitVec 64 → String) (rt : Runtime) (spec : JobSpec) : Prop where
  mapShips : spec.mapOperation.Ships rt
  reduceShips : spec.reduceOperation.Ships rt
  pairs : ∀ value ∈ spec.data, ∀ result, (spec.mapOperation.mapOverWire floatRepr rt).mapOne rt value = .ok result →
    ∃ key emitted, result = .list [.str key, emitted]

/-- The keys and values of an element, between two crossings of the wire. -/
def emit (floatRepr : BitVec 64 → String) (rt : Runtime) (spec : JobSpec) (value : Val) : Option (String × Val) :=
  (spec.mapOperation.mapOverWire floatRepr rt).emit rt value

end JobSpec

namespace Engine
variable {e e' : Engine} {responses : List Message}

/-- The tasks of these submissions are there, whatever became of them. -/
def Holds (e : Engine) (submissions : List Submission) : Prop :=
  ∀ next ∈ submissions, ∃ task, e.tasks.get? next.taskId = some task ∧ task.taskType = next.taskType ∧
    task.payload = next.payload

variable {submissions : List Submission} {job : Job}

theorem Holds.later (holds : e.Holds submissions) (later : e.Later e') :
    e'.Holds submissions := by
  intro next member
  obtain ⟨task, found, typed, filled⟩ := holds next member
  obtain ⟨task', found', typed', filled'⟩ := later.work next.taskId task found
  exact ⟨task', found', typed'.trans typed, filled'.trans filled⟩

variable {tasks : List (TaskId × Task)} {spec : JobSpec} {ticket : Ticket} {chunks : List (List Val)}
  {emitted : List (String × Val)}

theorem holds_submitted {s : Scheduler} (named : ∀ next ∈ submissions, next.taskId ≠ "" ∧ next.taskType ≠ "")
    (built : submitAll e.scheduler submissions = (.ok tasks, s)) :
    tasks = tasksOf submissions ∧ (e.submitted s).Holds submissions := by
  have given : ∀ next, (.ok next : Except PyError Submission) ∈ submissions.map .ok →
      next.taskId ≠ "" ∧ next.taskType ≠ "" := fun next member => named next (by simpa using member)
  obtain ⟨done, appended, all⟩ := submitEach_exact (s := e.scheduler) given
  rw [submitEach_ok, built] at appended all
  rcases all with ⟨same, all⟩ | ⟨_, _, _, _, raised, _⟩
  · obtain rfl : submissions = done := List.map_injective_iff.mpr (fun _ _ => Except.ok.inj) same
    refine ⟨Except.ok.inj all, fun next member => ⟨next.task, Dict.mem_entries.mp ?_, rfl, rfl⟩⟩
    have entries : s.tasks.entries = e.scheduler.tasks.entries ++ tasksOf submissions := appended.1
    show (next.taskId, next.task) ∈ s.tasks.entries
    rw [entries]
    exact List.mem_append_right _ (List.mem_map_of_mem member)
  · cases raised

/-- Responses that tell what became of tasks. -/
def Telling (floatRepr : BitVec 64 → String) (rt : Runtime) (e : Engine) (responses : List Message) : Prop :=
  ∀ response ∈ responses, ∃ t, Cluster.Tells floatRepr rt e.cluster.master t response

/-- The last response about a task of a job, if it is a success, has the result of the
task as it was submitted. -/
theorem Telling.ran (telling : e.Telling floatRepr rt responses) (holds : e.Holds submissions) {next : Submission}
    (member : next ∈ submissions) {response : Message} (last : lastAnswer next.taskId responses = some response)
    (succeeded : response.succeeded = true) :
    ∃ value, rt.runTask next.taskType (wireEntries floatRepr next.payload) = .ok value ∧
      response.get? "result" = some (value.overWire floatRepr) := by
  obtain ⟨listed, about⟩ := List.mem_filter.mp (List.mem_of_getLast? last)
  obtain ⟨t, tells⟩ := telling response listed
  obtain rfl := about_unique tells.about about
  obtain ⟨task, value, found, ran, carried⟩ := tells.result succeeded
  obtain ⟨task', found', typed, filled⟩ := holds next member
  obtain rfl : task = task' := Option.some.inj (found.symm.trans found')
  rw [typed, filled] at ran
  exact ⟨value, ran, carried⟩

theorem Telling.index (telling : e.Telling floatRepr rt responses) :
    ∃ index, indexResponsesByTaskId responses = .ok index ∧ ∀ t, index.get? t = lastAnswer t responses :=
  index_ok fun response member =>
    have ⟨_, tells⟩ := telling response member
    identified_of_about tells.about

section MapPhase
variable {spec : JobSpec} {fields : List (Key × Val)} {chunks : List (List Val)}

theorem partitions_enter_telling (telling : e.Telling floatRepr rt responses)
    (admissible : spec.Admissible floatRepr rt) (chosen : operationFields rt spec.mapOperation = .ok fields)
    (cut : partition spec.data spec.numPartitions = .ok chunks)
    (holds : e.Holds (mapSubmissions spec.jobId fields chunks)) {index : Dict TaskId Message}
    (indexed : ∀ t, index.get? t = lastAnswer t responses) (record : TaskId × Task → Task) :
    List.Forall₂ (Enters rt (spec.mapOperation.mapOverWire floatRepr rt) spec.jobId index)
      (((mapTasks spec.jobId fields chunks).map (fun task => (task.1, record task))).mapIdx (fun i task => (i, task)))
      (chunks.mapIdx (fun i chunk => if answered (mapTaskId spec.jobId i) responses then chunk else [])) := by
  refine List.forall₂_iff_get.mpr ⟨by simp [mapTasks, mapSubmissions], fun i _ bound => ?_⟩
  have inside : i < chunks.length := by simpa using bound
  have member : (⟨mapTaskId spec.jobId i, "MAP", fields ++ [(.str "data", .list chunks[i])]⟩ : Submission) ∈
      mapSubmissions spec.jobId fields chunks := List.mem_mapIdx.mpr ⟨i, inside, rfl⟩
  simp only [List.get_eq_getElem, List.getElem_mapIdx, List.getElem_map, mapTasks, mapSubmissions]
  refine enters_of_answers (indexed _) ?_ fun response last succeeded => ?_
  · intro value within result mapped
    have given : value ∈ spec.data := by
      rw [← flatten_of_partition cut]
      exact List.mem_flatten.mpr ⟨_, List.getElem_mem inside, within⟩
    obtain ⟨key, x, rfl⟩ := admissible.pairs value given result mapped
    exact ⟨(key, x), rfl⟩
  · obtain ⟨value, ran, carried⟩ := telling.ran holds member last succeeded
    obtain ⟨mapped, same, all⟩ := mapTask_overWire admissible.mapShips chosen ran
    exact ⟨mapped, same ▸ carried, all⟩

/-- The map responses are grouped as the emitted pairs of the surviving elements are. -/
theorem Telling.mapPhase (telling : e.Telling floatRepr rt responses) (admissible : spec.Admissible floatRepr rt)
    (chosen : operationFields rt spec.mapOperation = .ok fields)
    (cut : partition spec.data spec.numPartitions = .ok chunks)
    (holds : e.Holds (mapSubmissions spec.jobId fields chunks)) (record : TaskId × Task → Task) :
    ∃ emitted, (survivors spec.jobId responses chunks).mapM (spec.emit floatRepr rt) = some emitted ∧
      (buildIntermediateResults spec.jobId
        ((mapTasks spec.jobId fields chunks).map (fun task => (task.1, record task))) responses).bind shuffle =
          .ok (ObjectDict.ofStrings (Grouping.group emitted)) := by
  obtain ⟨index, found, indexed⟩ := telling.index
  obtain ⟨results, emitted, built, emits, folded⟩ :=
    shuffle_of_enters (partitions_enter_telling telling admissible chosen cut holds indexed record)
  have intermediate : buildIntermediateResults spec.jobId
      ((mapTasks spec.jobId fields chunks).map (fun task => (task.1, record task))) responses = .ok results := by
    rw [buildIntermediateResults, found]
    exact built
  refine ⟨emitted, emits, ?_⟩
  rw [intermediate]
  exact folded ∅

end MapPhase

section ReducePhase
variable {spec : JobSpec} {emitted : List (String × Val)}

/-- The submissions of the reduce phase, one for each key. -/
def reduceTasks (rt : Runtime) (jobId : String) (emitted : List (String × Val)) : List (Key × TaskId) :=
  (Grouping.group emitted).keys.map (fun key => (.str key, reduceTaskId rt jobId (.str key)))

/-- The tasks of the reduce phase are there. -/
def HoldsReduce (rt : Runtime) (e : Engine) (spec : JobSpec) (emitted : List (String × Val)) : Prop :=
  ∀ fields, operationFields rt spec.reduceOperation = .ok fields → e.Holds
    ((ObjectDict.ofStrings (Grouping.group emitted)).items.map (reduceSubmission rt spec.jobId fields))

/-- The reduce responses are collected into the reduced groups of the emitted pairs. -/
theorem Telling.reducePhase (telling : e.Telling floatRepr rt responses) (ships : spec.reduceOperation.Ships rt)
    (crossed : ∀ pair ∈ emitted, pair.2.overWire floatRepr = pair.2)
    (holds : e.HoldsReduce rt spec emitted) {result : ObjectDict Val}
    (collected : collectReduceResults rt (reduceTasks rt spec.jobId emitted) responses = .ok result) :
    Reduced rt (spec.reduceOperation.reduceOverWire floatRepr rt) emitted result := by
  obtain ⟨fields, chosen⟩ := operationFields_ok ships
  obtain ⟨index, found, indexed⟩ := telling.index
  have carried : ∀ key ∈ (Grouping.group emitted).keys, ∀ response,
      lastAnswer (reduceTaskId rt spec.jobId (.str key)) responses = some response → response.succeeded = true →
      ∃ value, response.get? "result" = some value ∧
        (spec.reduceOperation.reduceOverWire floatRepr rt).reduceAll rt (Grouping.valuesOf key emitted) =
          .ok value := by
    intro key member response last succeeded
    have held : (Grouping.group emitted).get? key = some (Grouping.valuesOf key emitted) := by
      rw [Grouping.get?_group, if_pos (Grouping.mem_keys_group.mp member)]
    have listed : (⟨reduceTaskId rt spec.jobId (.str key), "REDUCE", fields ++
        [(.str "key", .str key), (.str "values", .list (Grouping.valuesOf key emitted))]⟩ : Submission) ∈
        (ObjectDict.ofStrings (Grouping.group emitted)).items.map (reduceSubmission rt spec.jobId fields) := by
      simp only [ObjectDict.items_ofStrings, List.map_map]
      exact List.mem_map.mpr ⟨(key, Grouping.valuesOf key emitted), Dict.mem_entries.mpr held, rfl⟩
    obtain ⟨value, ran, answer⟩ := telling.ran (holds fields chosen) listed last succeeded
    refine ⟨_, answer, reduceTask_overWire ships chosen (fun v within => ?_) ran⟩
    obtain ⟨pair, inside, kept⟩ := List.mem_filterMap.mp within
    split at kept
    · cases kept
      exact crossed pair inside
    · cases kept
  have folded : collectReduceResults rt (reduceTasks rt spec.jobId emitted) responses =
      (reduceTasks rt spec.jobId emitted).foldlM (collectReduceResult rt index) .empty := by
    rw [collectReduceResults, found]
    rfl
  rw [folded] at collected
  have keys : ∀ k, k ∈ (Grouping.group emitted).keys ↔ k ∈ emitted.map Prod.fst := fun k => Grouping.mem_keys_group
  rcases collect_cases indexed carried ∅ with ⟨_, table, ended, values, others⟩ | ⟨_, text, raised⟩
  · obtain rfl := Except.ok.inj (collected.symm.trans ended)
    exact .of_table (fun k member => values k ((keys k).mpr member))
      (fun k outside => others k (mt (keys k).mp outside))
  · cases collected.symm.trans raised

end ReducePhase

/-! ### A job at each of its awaits -/

/-- The job awaits its map tasks. -/
structure Mapping (rt : Runtime) (e : Engine) (spec : JobSpec) (tasks : List (TaskId × Task)) (ticket : Ticket)
    (fields : List (Key × Val)) (chunks : List (List Val)) : Prop where
  chosen : operationFields rt spec.mapOperation = .ok fields
  cut : partition spec.data spec.numPartitions = .ok chunks
  built : tasks = mapTasks spec.jobId fields chunks
  holds : e.Holds (mapSubmissions spec.jobId fields chunks)
  awaits : ∃ ids : List TaskId, ids.Perm (tasks.map Prod.fst) ∧ e.Awaits spec.dispatch ids ticket

/-- The map responses of the job are worth the pairs `emitted`. -/
structure Mapped (floatRepr : BitVec 64 → String) (rt : Runtime) (e : Engine) (job : Job) (chunks : List (List Val))
    (emitted : List (String × Val)) : Prop where
  cut : partition job.spec.data job.spec.numPartitions = .ok chunks
  emits : (survivors job.spec.jobId job.mapResponses chunks).mapM (job.spec.emit floatRepr rt) = some emitted
  answers : job.spec.dispatch = .waitForTasks → ∀ i < chunks.length, ∃ response,
    lastAnswer (mapTaskId job.spec.jobId i) job.mapResponses = some response ∧
      (mapTaskId job.spec.jobId i, response) ∈ e.registry.log

/-- The job awaits its reduce tasks. -/
structure Reducing (rt : Runtime) (e : Engine) (spec : JobSpec) (emitted : List (String × Val))
    (tasks : List (Key × TaskId)) (ticket : Ticket) : Prop where
  built : tasks = reduceTasks rt spec.jobId emitted
  holds : e.HoldsReduce rt spec emitted
  awaits : ∃ ids : List TaskId, e.Awaits spec.dispatch ids ticket

def Sound (floatRepr : BitVec 64 → String) (rt : Runtime) (e : Engine) (job : Job) : Prop :=
  job.spec.Admissible floatRepr rt →
    match job.phase with
    | .mapping tasks ticket => ∃ fields chunks, Mapping rt e job.spec tasks ticket fields chunks
    | .reducing tasks ticket => ∃ chunks emitted, Mapped floatRepr rt e job chunks emitted ∧
        Reducing rt e job.spec emitted tasks ticket
    | .returned result => ∃ chunks emitted, Mapped floatRepr rt e job chunks emitted ∧
        Reduced rt (job.spec.reduceOperation.reduceOverWire floatRepr rt) emitted result
    | .raised _ => True

theorem Mapping.later {fields : List (Key × Val)} (mapping : Mapping rt e spec tasks ticket fields chunks)
    (later : e.Later e') :
    Mapping rt e' spec tasks ticket fields chunks := by
  obtain ⟨ids, same, awaits⟩ := mapping.awaits
  exact ⟨mapping.chosen, mapping.cut, mapping.built, mapping.holds.later later, ids, same, awaits.later later⟩

theorem Mapped.later (mapped : Mapped floatRepr rt e job chunks emitted) (later : e.Later e') :
    Mapped floatRepr rt e' job chunks emitted := by
  refine ⟨mapped.cut, mapped.emits, fun waits i inside => ?_⟩
  obtain ⟨response, last, logged⟩ := mapped.answers waits i inside
  exact ⟨response, last, later.log _ logged⟩

theorem Reducing.later {tasks : List (Key × TaskId)} (reducing : Reducing rt e spec emitted tasks ticket)
    (later : e.Later e') :
    Reducing rt e' spec emitted tasks ticket := by
  obtain ⟨ids, awaits⟩ := reducing.awaits
  exact ⟨reducing.built, fun _ chosen => (reducing.holds _ chosen).later later, ids, awaits.later later⟩

theorem Sound.later (sound : Sound floatRepr rt e job) (later : e.Later e') :
    Sound floatRepr rt e' job := by
  intro admissible
  have before := sound admissible
  obtain ⟨spec, responses, phase⟩ := job
  cases phase with
  | mapping tasks ticket =>
    obtain ⟨fields, chunks, mapping⟩ := before
    exact ⟨fields, chunks, mapping.later later⟩
  | reducing tasks ticket =>
    obtain ⟨chunks, emitted, mapped, reducing⟩ := before
    exact ⟨chunks, emitted, mapped.later later, reducing.later later⟩
  | returned result =>
    obtain ⟨chunks, emitted, mapped, reduced⟩ := before
    exact ⟨chunks, emitted, mapped.later later, reduced⟩
  | raised error => trivial

/-! ### What the turns of a job do -/

section Turns
variable {spec : JobSpec} {job : Job} {order : List TaskId} {now : Time} {j : Nat}
variable {tasks : List (TaskId × Task)} {s : Scheduler} {ticket : Ticket}

theorem holds_of_buildMapJob
    (built : buildMapJob rt e.scheduler spec.jobId spec.mapOperation spec.data spec.numPartitions = (.ok tasks, s)) :
    ∃ fields chunks, operationFields rt spec.mapOperation = .ok fields ∧
      partition spec.data spec.numPartitions = .ok chunks ∧ tasks = mapTasks spec.jobId fields chunks ∧
      (e.submitted s).Holds (mapSubmissions spec.jobId fields chunks) := by
  unfold buildMapJob at built
  split at built
  · cases built
  · rename_i fields chosen
    split at built
    · cases built
    · rename_i chunks cut
      obtain ⟨all, holds⟩ := holds_submitted (fun _ => named_mapSubmissions) built
      exact ⟨fields, chunks, chosen, cut, all, holds⟩

theorem holds_of_buildReduceJob {emitted : List (String × Val)} {tasks : List (Key × TaskId)}
    (built : buildReduceJob rt e.scheduler spec.jobId (ObjectDict.ofStrings (Grouping.group emitted))
      spec.reduceOperation = (.ok tasks, s)) :
    tasks = reduceTasks rt spec.jobId emitted ∧ (e.submitted s).HoldsReduce rt spec emitted := by
  unfold buildReduceJob at built
  split at built
  · cases built
  · rename_i fields chosen
    obtain ⟨all, rfl⟩ := Prod.mk.inj built
    obtain ⟨submitted, taken, rfl⟩ := map_eq_ok.mp all
    refine ⟨by simp [reduceTasks, ObjectDict.items_ofStrings, Dict.keys], fun fields' chosen' => ?_⟩
    obtain rfl := Except.ok.inj (chosen.symm.trans chosen')
    have named := fun next => @named_reduceRequest rt spec.jobId fields next
      (ObjectDict.ofStrings (Grouping.group emitted)).items
    rw [reduceRequests_ofStrings] at taken named ⊢
    rw [submitEach_ok] at taken ⊢
    exact (holds_submitted (fun next member => named next (List.mem_map_of_mem member)) (Prod.ext taken rfl)).2

theorem startJob_sound (served : Served floatRepr rt e) (taken : e.startJob floatRepr rt spec order now = some e') :
    ∃ job, e'.jobs = e.jobs ++ [job] ∧ Sound floatRepr rt e' job := by
  unfold Engine.startJob at taken
  split at taken
  · cases taken
    exact ⟨_, rfl, fun _ => trivial⟩
  · rename_i tasks s built
    split at taken
    · rename_i permuted
      obtain ⟨next, dispatched, rfl⟩ := Option.map_eq_some_iff.mp taken
      obtain ⟨fields, chunks, chosen, cut, rfl, holds⟩ := holds_of_buildMapJob built
      obtain ⟨submissions, rfl⟩ := buildMapJob_submits built
      obtain ⟨submitted, _⟩ := served.submitted submissions
      obtain ⟨_, later, awaits, jobs⟩ := submitted.dispatch dispatched
      refine ⟨_, congrArg (· ++ [_]) jobs, fun _ => ⟨fields, chunks, chosen, cut, rfl, ?_, order, ?_, ?_⟩⟩
      · exact holds.later (later.withJobs _)
      · exact List.isPerm_iff.mp permuted
      · exact awaits.later ((Later.refl _).withJobs _)
    · cases taken

theorem startReduce_sound (served : Served floatRepr rt e)
    (awaiting : job.spec.Admissible floatRepr rt → ∃ fields chunks, Mapping rt e job.spec tasks ticket fields chunks)
    (done : e.outcome? ticket = some (.ok responses))
    (taken : e.startReduce floatRepr rt j job tasks responses order now = some e') :
    ∃ job', e'.jobs = e.jobs.set j job' ∧ Sound floatRepr rt e' job' := by
  unfold Engine.startReduce at taken
  dsimp only at taken
  split at taken
  · cases taken
    exact ⟨_, rfl, fun _ => trivial⟩
  · rename_i grouped shuffled
    split at taken
    · cases taken
      exact ⟨_, rfl, fun _ => trivial⟩
    · rename_i tasks' s built
      split at taken
      · obtain ⟨next, dispatched, rfl⟩ := Option.map_eq_some_iff.mp taken
        obtain ⟨submissions, rfl⟩ := buildReduceJob_submits built
        obtain ⟨submitted, before⟩ := served.submitted submissions
        obtain ⟨_, after, awaits, jobs⟩ := submitted.dispatch dispatched
        refine ⟨_, congrArg (List.set · j _) jobs, fun admissible => ?_⟩
        obtain ⟨fields, chunks, chosen, cut, rfl, holds, ids, same, asked⟩ := awaiting admissible
        obtain ⟨telling, answers⟩ := served.outcome asked done
        obtain ⟨emitted, emits, groups⟩ := Telling.mapPhase telling admissible chosen cut holds
          (fun task => (e.tasks.get? task.1).getD task.2)
        obtain rfl := Except.ok.inj (shuffled.symm.trans groups)
        obtain ⟨rfl, stored⟩ := holds_of_buildReduceJob built
        refine ⟨chunks, emitted, ⟨cut, emits, fun waits i inside => ?_⟩, rfl, ?_, order, ?_⟩
        · have listed : mapTaskId job.spec.jobId i ∈ ids := by
            rw [same.mem_iff, mapTasks, List.map_map]
            exact List.mem_map.mpr ⟨_, List.mem_mapIdx.mpr ⟨i, inside, rfl⟩, rfl⟩
          obtain ⟨response, last, logged⟩ := answers waits _ listed
          exact ⟨response, last, ((before.trans after).withJobs _).log _ logged⟩
        · exact fun _ chosen => (stored _ chosen).later (after.withJobs _)
        · exact awaits.later ((Later.refl _).withJobs _)
      · cases taken

theorem finishJob_sound (served : Served floatRepr rt e) {tasks : List (Key × TaskId)}
    (awaiting : job.spec.Admissible floatRepr rt → ∃ chunks emitted, Mapped floatRepr rt e job chunks emitted ∧
      Reducing rt e job.spec emitted tasks ticket) (done : e.outcome? ticket = some (.ok responses)) :
    Sound floatRepr rt e (finishJob rt job tasks responses) := by
  unfold finishJob
  split
  · rename_i result collected
    intro admissible
    obtain ⟨chunks, emitted, mapped, rfl, holds, ids, asked⟩ := awaiting admissible
    refine ⟨chunks, emitted, ⟨mapped.cut, mapped.emits, mapped.answers⟩, ?_⟩
    have telling := (served.outcome asked done).1
    refine Telling.reducePhase telling admissible.reduceShips (fun pair member => ?_) holds collected
    obtain ⟨value, _, emits⟩ := (mem_of_mapM mapped.emits).2 pair member
    exact ExecutionSpec.overWire_of_emit emits
  · exact fun _ => trivial

theorem resumeJob_sound (served : Served floatRepr rt e) (sound : Sound floatRepr rt e job)
    (taken : e.resumeJob floatRepr rt j job order now = some e') :
    ∃ job', e'.jobs = e.jobs.set j job' ∧ Sound floatRepr rt e' job' := by
  unfold Engine.resumeJob at taken
  unfold Sound at sound
  split at taken
  · rename_i tasks ticket phase
    simp only [phase] at sound
    split at taken
    · rename_i responses done
      exact startReduce_sound served sound done taken
    · cases taken
      exact ⟨_, rfl, fun _ => trivial⟩
    · cases taken
  · rename_i tasks ticket phase
    simp only [phase] at sound
    split at taken
    · rename_i responses done
      cases taken
      exact ⟨_, rfl, (finishJob_sound served sound done).later ((Later.refl e).withJobs _)⟩
    · cases taken
      exact ⟨_, rfl, fun _ => trivial⟩
    · cases taken
  · cases taken

theorem jobs_turn {a : ClusterAction} (taken : e.turn floatRepr a = some e') : e'.jobs = e.jobs := by
  obtain ⟨c, _, rfl⟩ := Option.map_eq_some_iff.mp taken
  rfl

theorem step_sound (served : Served floatRepr rt e) (sound : ∀ job ∈ e.jobs, Sound floatRepr rt e job)
    {a : EngineAction} (taken : e.step floatRepr rt a = some e') : ∀ job ∈ e'.jobs, Sound floatRepr rt e' job := by
  have later := (served.step taken).2
  have kept (jobs : e'.jobs = e.jobs) : ∀ job ∈ e'.jobs, Sound floatRepr rt e' job :=
    fun job member => (sound job (jobs ▸ member)).later later
  cases a with
  | connect workerId host port => exact kept (jobs_turn taken)
  | cluster a =>
    simp only [Engine.step] at taken
    split at taken
    · cases taken
    · exact kept (jobs_turn taken)
  | waitForTasks taskIds =>
    simp only [Engine.step, Engine.waitForTasks] at taken
    obtain ⟨mid, turned, rfl⟩ := Option.map_eq_some_iff.mp taken
    have same : mid.jobs = e.jobs := jobs_turn turned
    exact kept same
  | caller a =>
    simp only [Engine.step] at taken
    split at taken
    · obtain ⟨r, _, rfl⟩ := Option.map_eq_some_iff.mp taken
      exact kept rfl
    · cases taken
  | startJob spec order now =>
    obtain ⟨new, jobs, fresh⟩ := startJob_sound served taken
    intro job member
    rw [jobs, List.mem_append, List.mem_singleton] at member
    rcases member with old | rfl
    · exact (sound job old).later later
    · exact fresh
  | resumeJob j order now =>
    obtain ⟨old, there, resumed⟩ := Option.bind_eq_some_iff.mp taken
    obtain ⟨new, jobs, fresh⟩ :=
      resumeJob_sound served (sound old (List.mem_iff_getElem?.mpr ⟨j, there⟩)) resumed
    intro job member
    rw [jobs] at member
    rcases List.mem_or_eq_of_mem_set member with old | rfl
    · exact (sound job old).later later
    · exact fresh

theorem sound_of_run {ok : Engine → EngineAction → Prop} (run : Steps (Engine.step floatRepr rt) ok initial e) :
    ∀ job ∈ e.jobs, Sound floatRepr rt e job :=
  run.invariant_with (I := fun e => ∀ job ∈ e.jobs, Sound floatRepr rt e job) (fun _ => served_of_run)
    (fun _ member => nomatch member) (fun _ _ _ served sound _ taken => step_sound served sound taken)

end Turns

/-! ### The result of a job -/

def wordCountJob : JobSpec :=
  ⟨"wc", [.str "a", .str "b", .str "a"], .registered "WORD_COUNT", .registered "SUM", 2, .waitForTasks⟩

def wordCountRun : List EngineAction :=
  enrol ++ [.startJob wordCountJob ["wc-map-1", "wc-map-0"] 0] ++ serveNext 0 ++ serveNext 1 ++
    [.caller (.gatherEnds 0), .caller (.resume 0), .resumeJob 0 ["wc-reduce-a", "wc-reduce-b"] 20] ++
    serveNext 2 ++ serveNext 3 ++ [.caller (.gatherEnds 1), .caller (.resume 1), .resumeJob 0 [] 40]

/-- The job is `wordCountJob` and has counted two occurrences of "a". -/
def countedTwice : Job → Bool
  | ⟨⟨"wc", [.str "a", .str "b", .str "a"], .registered "WORD_COUNT", .registered "SUM", 2, .waitForTasks⟩, _,
      .returned result⟩ =>
        match result.get? (.str "a") with
        | some (.int 2) => true
        | _ => false
  | _ => false

theorem returned_of_countedTwice (counted : countedTwice job = true) :
    job.spec = wordCountJob ∧ ∃ result, job.phase = .returned result ∧ result.get? (.str "a") = some (.int 2) := by
  unfold countedTwice at counted
  split at counted
  · rename_i result
    split at counted
    · rename_i held
      exact ⟨rfl, result, rfl, held⟩
    · cases counted
  · cases counted

theorem wordCountJob_admissible : wordCountJob.Admissible floatRepr bareRuntime where
  mapShips := trivial
  reduceShips := trivial
  pairs := by
    intro value member result mapped
    obtain ⟨returned, counted, rfl⟩ := ExecutionSpec.mapOne_mapOverWire.mp mapped
    simp only [wordCountJob, List.mem_cons, List.not_mem_nil, or_false] at member
    rcases member with rfl | rfl | rfl <;> rw [Val.overWire_str] at counted <;> cases counted <;>
      exact ⟨_, _, by rw [Val.overWire_list, List.map_cons, Val.overWire_str]; rfl⟩

end Engine
end DistributedCompute
