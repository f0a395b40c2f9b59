import DistributedCompute.Json
import DistributedCompute.MapReduce

/-! The job layer against one unsplit run: a map over partitions gives what one MAP
task over the whole data gives, and a reduce that is dispatched key by key gives what
`reduce_grouped` gives in place. A callable need not arrive as it was sent: both sides
run what the same text decodes to. -/
namespace DistributedCompute
open Py Raising

/-! ### A MAP task treats each element alone -/

section Elements
variable {rt : Runtime}
variable {name : String} {fields : List (Key × Val)}

theorem checkResult_ok {result : Val} :
    rt.checkResultIsJsonSafe result name = .ok () ↔ result.jsonFault false rt.jsonDepth = none := by
  unfold Runtime.checkResultIsJsonSafe
  cases result.jsonFault false rt.jsonDepth with
  | none => simp
  | some fault => cases fault <;> simp

/-- The user function returns `result` for `value`, and a list may hold it. -/
def MapsTo (rt : Runtime) (fn : Callable) (value result : Val) : Prop :=
  Runtime.userResult (fn [value] []) = .ok result ∧
    ∃ depth, rt.jsonDepth = depth + 1 ∧ result.jsonFault false depth = none

theorem mapUser_ok_iff {fn : Callable} {data : List Val} {result : Val} (some : data ≠ []) :
    rt.mapUser fn data name = .ok result ↔
      ∃ mapped, result = .list mapped ∧ List.Forall₂ (MapsTo rt fn) data mapped := by
  unfold MapsTo
  constructor
  · intro ran
    obtain ⟨mapped, all, ran⟩ := bind_eq_ok.mp ran
    obtain ⟨_, safe, ran⟩ := bind_eq_ok.mp ran
    refine ⟨mapped, (Except.ok.inj ran).symm, forall₂_and_right.mpr ⟨mapM_ok_iff.mp all, ?_⟩⟩
    have safe := checkResult_ok.mp safe
    cases deep : rt.jsonDepth with
    | zero =>
      rw [deep] at safe
      cases safe
    | succ depth =>
      rw [deep] at safe
      intro v member
      exact ⟨depth, rfl, listJsonFault_eq_none.mp safe v member⟩
  · rintro ⟨mapped, rfl, related⟩
    obtain ⟨all, safe⟩ := forall₂_and_right.mp related
    refine bind_eq_ok.mpr ⟨mapped, mapM_ok_iff.mpr all, bind_eq_ok.mpr ⟨(), checkResult_ok.mpr ?_, rfl⟩⟩
    cases all with
    | nil => exact absurd rfl some
    | cons _ _ =>
      obtain ⟨depth, deep, -⟩ := safe _ List.mem_cons_self
      rw [deep]
      refine listJsonFault_eq_none.mpr fun v member => ?_
      obtain ⟨depth', deep', fine⟩ := safe v member
      obtain rfl : depth' = depth := Nat.succ.inj (deep'.symm.trans deep)
      exact fine

/-- The payload of a MAP task over all the data. -/
def mapPayload (fields : List (Key × Val)) (data : List Val) : List (Key × Val) :=
  fields ++ [(.str "data", .list data)]

/-- Running a MAP task relates each element of its data to one element of the result. -/
def Elementwise (rt : Runtime) (fields : List (Key × Val)) (maps : Val → Val → Prop) : Prop :=
  ∀ data result, data ≠ [] → (rt.executeMap (mapPayload fields data) = .ok result ↔
    ∃ mapped, result = .list mapped ∧ List.Forall₂ maps data mapped)

theorem elementwise_builtIn {operation : MapOperation} (builtIn : mapOperation? name = some operation) :
    Elementwise rt [(.str "operation", .str name)]
      (fun value result => rt.applyMapOperation operation value = .ok result) := by
  intro data result _
  rw [mapPayload, Runtime.executeMap_builtIn rfl rfl builtIn]
  show (do return Val.list (← data.mapM (rt.applyMapOperation operation))) = Except.ok result ↔ _
  constructor
  · intro ran
    obtain ⟨mapped, all, ran⟩ := bind_eq_ok.mp ran
    exact ⟨mapped, (Except.ok.inj ran).symm, mapM_ok_iff.mp all⟩
  · rintro ⟨mapped, rfl, all⟩
    exact bind_eq_ok.mpr ⟨mapped, mapM_ok_iff.mpr all, rfl⟩

theorem elementwise_of_user (fn : Callable) (name : String)
    (runs : ∀ data, rt.executeMap (mapPayload fields data) = rt.mapUser fn data name) :
    Elementwise rt fields (MapsTo rt fn) := by
  intro data result some
  rw [runs]
  exact mapUser_ok_iff some

/-- An operation that cannot be found, or a text that cannot be decoded, maps nothing. -/
theorem elementwise_of_error (e : Raised) (runs : ∀ data, rt.executeMap (mapPayload fields data) = .error e) :
    Elementwise rt fields (fun _ _ => False) := by
  intro data result some
  rw [runs]
  constructor
  · intro ran
    cases ran
  · rintro ⟨mapped, -, related⟩
    cases related with
    | nil => exact absurd rfl some
    | cons here _ => exact here.elim

theorem elementwise_registered (name : String) : ∃ maps, Elementwise rt [(.str "operation", .str name)] maps := by
  cases builtIn : mapOperation? name with
  | some operation => exact ⟨_, elementwise_builtIn builtIn⟩
  | none =>
    cases known : rt.functions name with
    | some fn =>
      have found : rt.resolve mapOperation? "MAP" (some (.str name)) = .ok (.inr (fn, name)) := by
        simp only [Runtime.resolve, Option.getD_some, Val.lookup, builtIn, known]
      refine ⟨_, elementwise_of_user fn name fun data => ?_⟩
      show rt.resolve mapOperation? "MAP" (some (.str name)) >>= _ = _
      rw [found]
      rfl
    | none =>
      have missing : ∃ e, rt.resolve mapOperation? "MAP" (some (.str name)) = .error e := by
        simp only [Runtime.resolve, Option.getD_some, Val.lookup, builtIn, known]
        exact ⟨_, rfl⟩
      obtain ⟨e, missing⟩ := missing
      refine ⟨_, elementwise_of_error e fun data => ?_⟩
      show rt.resolve mapOperation? "MAP" (some (.str name)) >>= _ = _
      rw [missing]
      rfl

theorem elementwise_serialized (text : String) : ∃ maps, Elementwise rt
    [(.str "execution_mode", .str "serialized_callable"), (.str "callable", .str text)] maps := by
  cases decoded : rt.deserializeCallableField [(.str "callable", .str text)] with
  | ok fn =>
    refine ⟨_, elementwise_of_user fn "MAP(serialized_callable)" fun data => ?_⟩
    show rt.deserializeCallableField [(.str "callable", .str text)] >>= _ = _
    rw [decoded]
    rfl
  | error e =>
    refine ⟨_, elementwise_of_error e fun data => ?_⟩
    show rt.deserializeCallableField [(.str "callable", .str text)] >>= _ = _
    rw [decoded]
    rfl

theorem elementwise_of_operation {operation : ExecutionSpec} (chosen : operationFields rt operation = .ok fields) :
    ∃ maps, Elementwise rt fields maps := by
  cases operation with
  | registered name =>
    obtain rfl := Except.ok.inj chosen
    exact elementwise_registered name
  | serialized fn =>
    cases encoded : rt.serialize fn with
    | error text =>
      rw [operationFields, encoded] at chosen
      cases chosen
    | ok text =>
      rw [operationFields, encoded] at chosen
      obtain rfl := Except.ok.inj chosen
      exact elementwise_serialized text

end Elements

/-! ### Tasks of a map job -/

theorem tasks_of_submitAll {s : Scheduler} {submissions : List Submission} {tasks : List (TaskId × Task)}
    (submitted : (submitAll s submissions).1 = .ok tasks) :
    tasks = submissions.map (fun next => (next.taskId, next.task)) := by
  induction submissions generalizing s tasks with
  | nil => exact (Except.ok.inj submitted).symm
  | cons next rest ih =>
    rw [submitAll] at submitted
    split at submitted
    · cases submitted
    · rename_i task later accepted
      obtain ⟨others, all, rfl⟩ := map_eq_ok.mp submitted
      obtain ⟨-, rfl, -⟩ := Scheduler.submitTask_ok accepted
      rw [List.map_cons, ← ih all]
      rfl

/-! ### Collecting the results of a map job -/

section Collecting
variable {rt : Runtime} {index : Dict TaskId Message} {responses : List Message}

/-- A response that carries what `execute_task` returned is a success exactly when the
handler returned a value. -/
theorem ResultOf.succeeded_iff {task : Task} {response : Message} (result : ResultOf rt task response) :
    response.succeeded = true ↔ ∃ value, rt.runTask task.taskType task.payload = .ok value := by
  constructor
  · intro succeeded
    obtain ⟨value, -, ran⟩ := result.ran succeeded
    exact ⟨value, ran⟩
  · rintro ⟨value, ran⟩
    obtain ⟨fields, executed, carried⟩ := result
    rw [Runtime.executeTask, ran] at executed
    obtain rfl := Except.ok.inj executed
    have status : response.get? "status" = some (.str "success") := carried _ List.mem_cons_self
    simp [Message.succeeded, status]

/-- One turn of the collection over an answered task. -/
theorem collectMapResult_cases {task : TaskId × Task} {response : Message} (found : index.get? task.1 = some response)
    (result : ResultOf rt task.2 response)
    (lists : ∀ value, rt.runTask task.2.taskType task.2.payload = .ok value → ∃ items, value = .list items)
    (combined : List Val) :
    (∃ items, rt.runTask task.2.taskType task.2.payload = .ok (.list items) ∧
      collectMapResult rt index combined task = .ok (combined ++ items)) ∨
    ((∀ value, rt.runTask task.2.taskType task.2.payload ≠ .ok value) ∧
      ∃ text, collectMapResult rt index combined task = .error (.valueError text)) := by
  unfold collectMapResult
  rw [found]
  by_cases succeeded : response.succeeded = true
  · obtain ⟨value, carried, ran⟩ := result.ran succeeded
    obtain ⟨items, rfl⟩ := lists value ran
    refine .inl ⟨items, ran, ?_⟩
    simp only [if_pos succeeded, carried]
    rfl
  · refine .inr ⟨fun value ran => succeeded (result.succeeded_iff.mpr ⟨value, ran⟩), ?_⟩
    simp only [if_neg succeeded]
    exact ⟨_, rfl⟩

/-- The whole collection: all parts in order, or ValueError. -/
theorem collectMap_cases {tasks : List (TaskId × Task)}
    (answers : ∀ task ∈ tasks, ∃ response, index.get? task.1 = some response ∧ ResultOf rt task.2 response)
    (lists : ∀ task ∈ tasks, ∀ value, rt.runTask task.2.taskType task.2.payload = .ok value →
      ∃ items, value = .list items)
    (combined : List Val) :
    (∃ parts, List.Forall₂ (fun task items => rt.runTask task.2.taskType task.2.payload = .ok (.list items))
        tasks parts ∧ tasks.foldlM (collectMapResult rt index) combined = .ok (combined ++ parts.flatten)) ∨
    ((∃ task ∈ tasks, ∀ value, rt.runTask task.2.taskType task.2.payload ≠ .ok value) ∧
      ∃ text, tasks.foldlM (collectMapResult rt index) combined = .error (.valueError text)) := by
  induction tasks generalizing combined with
  | nil =>
    refine .inl ⟨[], .nil, ?_⟩
    rw [List.flatten_nil, List.append_nil]
    rfl
  | cons task rest ih =>
    obtain ⟨answered, restAnswered⟩ := List.forall_mem_cons.mp answers
    obtain ⟨list, restLists⟩ := List.forall_mem_cons.mp lists
    obtain ⟨response, found, result⟩ := answered
    rw [List.foldlM_cons]
    rcases collectMapResult_cases found result list combined with ⟨items, ran, taken⟩ | ⟨failed, text, taken⟩
    · rw [taken]
      rcases ih restAnswered restLists (combined ++ items) with
        ⟨parts, all, collected⟩ | ⟨⟨task, member, failed⟩, raised⟩
      · refine .inl ⟨items :: parts, .cons ran all, ?_⟩
        rw [List.flatten_cons, ← List.append_assoc]
        exact collected
      · exact .inr ⟨⟨task, List.mem_cons_of_mem _ member, failed⟩, raised⟩
    · rw [taken]
      exact .inr ⟨⟨task, List.mem_cons_self, failed⟩, text, rfl⟩

end Collecting

section Whole
variable {rt : Runtime} {fields : List (Key × Val)} {maps : Val → Val → Prop} {chunks : List (List Val)}

/-- If every chunk can be mapped then so can the data, and the results are cut alike. -/
theorem Elementwise.whole {parts : List (List Val)} (elementwise : Elementwise rt fields maps)
    (full : ∀ chunk ∈ chunks, chunk ≠ []) (nonempty : chunks.flatten ≠ [])
    (ran : List.Forall₂ (fun chunk items => rt.executeMap (mapPayload fields chunk) = .ok (.list items))
      chunks parts) :
    rt.executeMap (mapPayload fields chunks.flatten) = .ok (.list parts.flatten) := by
  have related : List.Forall₂ (List.Forall₂ maps) chunks parts := by
    refine ((List.forall₂_and_left _ _).mpr ⟨full, ran⟩).imp fun chunk items here => ?_
    obtain ⟨mapped, same, related⟩ := (elementwise chunk _ here.1).mp here.2
    cases same
    exact related
  exact (elementwise _ _ nonempty).mpr ⟨_, rfl, forall₂_flatten related⟩

theorem Elementwise.parts {result : Val} (elementwise : Elementwise rt fields maps)
    (full : ∀ chunk ∈ chunks, chunk ≠ []) (nonempty : chunks.flatten ≠ [])
    (ran : rt.executeMap (mapPayload fields chunks.flatten) = .ok result) :
    ∀ chunk ∈ chunks, ∃ value, rt.executeMap (mapPayload fields chunk) = .ok value := by
  obtain ⟨mapped, -, related⟩ := (elementwise _ _ nonempty).mp ran
  obtain ⟨images, cut, -⟩ := forall₂_flatten_left related
  intro chunk member
  obtain ⟨image, -, here⟩ := exists_right_of_forall₂ cut member
  exact ⟨.list image, (elementwise chunk _ (full chunk member)).mpr ⟨image, rfl, here⟩⟩

theorem snd_mapTasks (jobId : String) (fields : List (Key × Val)) (chunks : List (List Val)) :
    (mapTasks jobId fields chunks).map Prod.snd =
      chunks.map (fun chunk => (⟨"MAP", mapPayload fields chunk, .pending, none, 0⟩ : Task)) := by
  ext i
  simp [mapTasks, mapSubmissions, Submission.task, mapPayload]

/-- What a task of a map job runs is the executor on one of the chunks. -/
theorem chunk_of_mapTasks {jobId : String} {task : TaskId × Task} (member : task ∈ mapTasks jobId fields chunks) :
    ∃ chunk ∈ chunks,
      rt.runTask task.2.taskType task.2.payload = rt.executeMap (mapPayload fields chunk) := by
  have record : task.2 ∈ (mapTasks jobId fields chunks).map Prod.snd := List.mem_map_of_mem member
  rw [snd_mapTasks] at record
  obtain ⟨chunk, there, same⟩ := List.mem_map.mp record
  exact ⟨chunk, there, by rw [← same]; rfl⟩

/-- The collected parts are the result over all the data, or the data cannot be mapped. -/
theorem Elementwise.collected {jobId : String} {index : Dict TaskId Message}
    (elementwise : Elementwise rt fields maps) (full : ∀ chunk ∈ chunks, chunk ≠ [])
    (nonempty : chunks.flatten ≠ [])
    (answers : ∀ task ∈ mapTasks jobId fields chunks, ∃ response, index.get? task.1 = some response ∧
      ResultOf rt task.2 response) :
    (∃ items, rt.executeMap (mapPayload fields chunks.flatten) = .ok (.list items) ∧
      (mapTasks jobId fields chunks).foldlM (collectMapResult rt index) [] = .ok items) ∨
    ((∀ value, rt.executeMap (mapPayload fields chunks.flatten) ≠ .ok value) ∧
      ∃ text, (mapTasks jobId fields chunks).foldlM (collectMapResult rt index) [] = .error (.valueError text)) := by
  have lists : ∀ task ∈ mapTasks jobId fields chunks, ∀ value,
      rt.runTask task.2.taskType task.2.payload = .ok value → ∃ items, value = .list items := by
    intro task member value ran
    obtain ⟨chunk, there, same⟩ := chunk_of_mapTasks member
    obtain ⟨mapped, list, -⟩ := (elementwise chunk value (full chunk there)).mp (same.symm.trans ran)
    exact ⟨mapped, list⟩
  rcases collectMap_cases answers lists [] with ⟨parts, all, combined⟩ | ⟨⟨task, member, failed⟩, raised⟩
  · refine .inl ⟨parts.flatten, elementwise.whole full nonempty ?_, combined⟩
    have records := (List.forall₂_map_left_iff (f := Prod.snd) (R := fun (task : Task) items =>
      rt.runTask task.taskType task.payload = .ok (.list items))).mpr all
    rw [snd_mapTasks, List.forall₂_map_left_iff] at records
    exact records
  · refine .inr ⟨fun value ran => ?_, raised⟩
    obtain ⟨chunk, there, same⟩ := chunk_of_mapTasks member
    obtain ⟨part, done⟩ := elementwise.parts full nonempty ran chunk there
    exact failed part (same.trans done)

end Whole

theorem runTask_of_success {rt : Runtime} {taskType : String} {payload : List (Key × Val)} {result : Val}
    (success : rt.executeTask taskType payload = .ok [("status", .str "success"), ("result", result)]) :
    rt.runTask taskType payload = .ok result := by
  cases ran : rt.runTask taskType payload with
  | ok value =>
    rw [Runtime.executeTask, ran] at success
    cases success
    rfl
  | error raised =>
    rw [Runtime.executeTask, ran] at success
    cases raised <;> simp at success

theorem runTask_of_failure {rt : Runtime} {taskType : String} {payload : List (Key × Val)} {code message value : Val}
    (failure : rt.executeTask taskType payload =
      .ok [("status", .str "error"), ("code", code), ("message", message)]) :
    rt.runTask taskType payload ≠ .ok value := by
  intro ran
  rw [Runtime.executeTask, ran] at failure
  simp at failure

/-- A distributed map is one big map. -/
theorem collectMapResults_whole {rt : Runtime} {s : Scheduler} {jobId : String} {operation : ExecutionSpec}
    {fields : List (Key × Val)} {data : List Val} {numPartitions : Int} {tasks : List (TaskId × Task)}
    {responses : List Message} (nonempty : data ≠ []) (positive : 1 ≤ numPartitions)
    (chosen : operationFields rt operation = .ok fields)
    (built : (buildMapJob rt s jobId operation data numPartitions).1 = .ok tasks)
    (identified : ∀ response ∈ responses, response.identified = true)
    (answers : ∀ task ∈ tasks, ∃ response, lastAnswer task.1 responses = some response ∧
      ResultOf rt task.2 response) :
    (∀ result, rt.executeTask "MAP" (mapPayload fields data) = .ok [("status", .str "success"), ("result", result)] →
      ∃ items, result = .list items ∧ collectMapResults rt tasks responses = .ok items) ∧
    (∀ code message, rt.executeTask "MAP" (mapPayload fields data) =
        .ok [("status", .str "error"), ("code", code), ("message", message)] →
      ∃ text, collectMapResults rt tasks responses = .error (.valueError text)) := by
  obtain ⟨chunks, cut, rfl⟩ : ∃ chunks, partition data numPartitions = .ok chunks ∧ chunks.flatten = data :=
    partition_flatten positive
  obtain ⟨maps, elementwise⟩ := elementwise_of_operation chosen
  obtain rfl : tasks = mapTasks jobId fields chunks := by
    rw [buildMapJob, chosen, cut] at built
    exact tasks_of_submitAll built
  obtain ⟨index, indexed, last⟩ := index_ok identified
  have collected : collectMapResults rt (mapTasks jobId fields chunks) responses =
      (mapTasks jobId fields chunks).foldlM (collectMapResult rt index) [] := by
    rw [collectMapResults, indexed]
    rfl
  have found : ∀ task ∈ mapTasks jobId fields chunks, ∃ response, index.get? task.1 = some response ∧
      ResultOf rt task.2 response := by
    intro task member
    obtain ⟨response, answer, result⟩ := answers task member
    exact ⟨response, (last task.1).trans answer, result⟩
  rw [collected]
  rcases elementwise.collected (partition_ne_nil cut) nonempty found with ⟨items, ran, combined⟩ | ⟨failed, raised⟩
  · refine ⟨fun result success => ?_, fun code message failure => ?_⟩
    · exact ⟨items, Except.ok.inj ((runTask_of_success success).symm.trans ran), combined⟩
    · exact absurd ran (runTask_of_failure failure)
  · refine ⟨fun result success => ?_, fun code message _ => raised⟩
    exact absurd (runTask_of_success success) (failed result)

/-- Responses to a map over two partitions: a lost attempt, and the second partition first. -/
def squareResponses : List Message :=
  [⟨.error, "", [("task_id", .str "j-map-0"), ("code", .str "WORKER_UNREACHABLE")]⟩,
    ⟨.taskResult, "", [("task_id", .str "j-map-1"), ("status", .str "success"), ("result", .list [.int 9])]⟩,
    ⟨.taskResult, "", [("task_id", .str "j-map-0"), ("status", .str "success"),
      ("result", .list [.int 1, .int 4])]⟩]

theorem squares_collected :
    ∃ tasks, (buildMapJob bareRuntime ⟨∅, ∅⟩ "j" (.registered "SQUARE") [.int 1, .int 2, .int 3] 2).1 = .ok tasks ∧
      collectMapResults bareRuntime tasks squareResponses = .ok [.int 1, .int 4, .int 9] := by
  refine ⟨_, rfl, ?_⟩
  obtain ⟨items, same, collected⟩ := (@collectMapResults_whole bareRuntime ⟨∅, ∅⟩ "j" (.registered "SQUARE") _
    [.int 1, .int 2, .int 3] 2 _ squareResponses (by simp) (by decide) rfl rfl (by decide) (by
      intro task member
      simp only [List.mem_cons, List.not_mem_nil, or_false] at member
      rcases member with rfl | rfl
      · refine ⟨squareResponses[2], rfl, _, rfl, ?_⟩
        exact List.forall_mem_cons.mpr ⟨rfl, List.forall_mem_singleton.mpr rfl⟩
      · refine ⟨squareResponses[1], rfl, _, rfl, ?_⟩
        exact List.forall_mem_cons.mpr ⟨rfl, List.forall_mem_singleton.mpr rfl⟩)).1
    (.list [.int 1, .int 4, .int 9]) rfl
  cases same
  exact collected

/-! ### Reduce in place and reduce through tasks -/

def isFloat : Val → Bool
  | .float _ => true
  | _ => false

section Reduce
variable {rt : Runtime} {operation : ReduceOperation}
variable {values : List Val}

theorem intValues_of_numbers (numbers : values.all isNumber = true) (integers : ∀ v ∈ values, isFloat v = false) :
    ∃ ns, Runtime.intValues values = some ns := by
  induction values with
  | nil => exact ⟨[], rfl⟩
  | cons v rest ih =>
    rw [List.all_cons, Bool.and_eq_true] at numbers
    obtain ⟨first, later⟩ := List.forall_mem_cons.mp integers
    obtain ⟨ns, known⟩ := ih numbers.2 later
    cases v with
    | int n => exact ⟨n :: ns, by rw [Runtime.intValues, known]; rfl⟩
    | float => cases first
    | none | bool | str | list | tuple | dict | object => cases numbers.1

/-- A built-in operation over integers and things that are no numbers: a value, or
`ExecutionError`. -/
theorem applyReduceOperation_cases {first : Val} {rest : List Val}
    (integers : ∀ v ∈ first :: rest, isFloat v = false) :
    (∃ value, rt.applyReduceOperation operation (first :: rest) = .ok value) ∨
      ∃ code message, rt.applyReduceOperation operation (first :: rest) = .error (.execution code message) := by
  unfold Runtime.applyReduceOperation
  split
  · exact .inr ⟨_, _, rfl⟩
  · rename_i numbers
    refine .inl ?_
    cases operation with
    | sum =>
      obtain ⟨ns, known⟩ := intValues_of_numbers (Bool.eq_true_of_not_eq_false numbers) integers
      exact ⟨.int ns.sum, by simp only [Runtime.sum, known]⟩
    | count => exact ⟨_, rfl⟩
    | max | min => exact ⟨_, rfl⟩

/-- What REDUCE with a built-in operation makes of the values of one key. -/
def reduceValues (rt : Runtime) (operation : ReduceOperation) : List Val → Except Raised Val
  | [] => .error (invalidArguments "payload must contain a non-empty list field 'values'")
  | first :: rest => rt.applyReduceOperation operation (first :: rest)

theorem reduceValues_cases (integers : ∀ v ∈ values, isFloat v = false) :
    (∃ value, reduceValues rt operation values = .ok value) ∨
      ∃ code message, reduceValues rt operation values = .error (.execution code message) := by
  cases values with
  | nil => exact .inr ⟨_, _, rfl⟩
  | cons first rest => exact applyReduceOperation_cases integers

variable {name : String}

theorem executeReduce_local (named : reduceOperation? name = some operation) (functions : String → Option Callable)
    (values : List Val) : ({ rt with functions := functions } : Runtime).executeReduce
      [(.str "operation", .str name), (.str "values", .list values)] = reduceValues rt operation values := by
  rw [Runtime.executeReduce_builtIn rfl rfl named]
  cases values <;> rfl

theorem executeReduce_task (named : reduceOperation? name = some operation) (key : String) (values : List Val) :
    rt.executeReduce ([(.str "operation", .str name)] ++ [(.str "key", .str key), (.str "values", .list values)]) =
      reduceValues rt operation values := by
  rw [Runtime.executeReduce_builtIn rfl rfl named]
  cases values <;> rfl

/-- One key, in place and through a task. -/
theorem reduceGroup_alike {index : Dict TaskId Message} {jobId key : String} {task : Task} {response : Message}
    (named : reduceOperation? name = some operation) (functions : String → Option Callable)
    (integers : ∀ v ∈ values, isFloat v = false)
    (ran : rt.runTask task.taskType task.payload = reduceValues rt operation values)
    (found : index.get? (reduceTaskId rt jobId (.str key)) = some response) (result : ResultOf rt task response)
    (reduced : ObjectDict Val) :
    (∃ later, reduceGroup { rt with functions := functions } name reduced (.str key, values) = .ok later ∧
        collectReduceResult rt index reduced (.str key, reduceTaskId rt jobId (.str key)) = .ok later) ∨
      ∃ here there, reduceGroup { rt with functions := functions } name reduced (.str key, values) =
          .error ⟨"ValueError", here⟩ ∧
        collectReduceResult rt index reduced (.str key, reduceTaskId rt jobId (.str key)) =
          .error (.valueError there) := by
  unfold reduceGroup collectReduceResult
  rw [executeReduce_local named functions values, found]
  rcases @reduceValues_cases rt operation values integers with ⟨value, done⟩ | ⟨code, message, failed⟩
  · have succeeded := result.succeeded_iff.mpr ⟨value, ran.trans done⟩
    obtain ⟨carried, held, same⟩ := result.ran succeeded
    obtain rfl : carried = value := Except.ok.inj (same.symm.trans (ran.trans done))
    refine .inl ⟨_, by rw [done], ?_⟩
    simp only [if_pos succeeded, held]
  · have refused : ¬response.succeeded = true := by
      intro succeeded
      obtain ⟨value, -, same⟩ := result.ran succeeded
      cases same.symm.trans (ran.trans failed)
    exact .inr ⟨_, _, by rw [failed], if_neg refused⟩

/-- The tasks that `build_reduce_job` leaves for a dict with string keys. -/
theorem buildReduceJob_stored {s : Scheduler} {jobId : String} (name : String) (grouped : Dict String (List Val))
    (fresh : ∀ key, s.tasks.get? (reduceTaskId rt jobId (.str key)) = none) :
    ∃ later, buildReduceJob rt s jobId (.ofStrings grouped) (.registered name) =
        (.ok (grouped.entries.map (fun e => (Key.str e.1, reduceTaskId rt jobId (.str e.1)))), later) ∧
      ∀ e ∈ grouped.entries, later.tasks.get? (reduceTaskId rt jobId (.str e.1)) = some ⟨"REDUCE",
        [(.str "operation", .str name)] ++ [(.str "key", .str e.1), (.str "values", .list e.2)],
          .pending, none, 0⟩ := by
  obtain ⟨⟨_, all⟩, stored⟩ := submit_reduce [(.str "operation", .str name)] grouped fresh
  refine ⟨_, ?_, fun e member => stored e.1 e.2 (Dict.mem_entries.mp member)⟩
  simp only [buildReduceJob, operationFields, all]
  simp [Except.map, ObjectDict.items_ofStrings]

end Reduce

/-- Local and dispatched reduce agree. -/
theorem reduceGrouped_dispatched {rt : Runtime} {s : Scheduler} {jobId name : String}
    {grouped : Dict String (List Val)} (builtIn : (reduceOperation? name).isSome = true)
    (integers : ∀ values ∈ grouped.values, ∀ v ∈ values, isFloat v = false)
    (fresh : ∀ key, s.tasks.get? (reduceTaskId rt jobId (.str key)) = none) :
    ∃ tasks later, buildReduceJob rt s jobId (.ofStrings grouped) (.registered name) = (.ok tasks, later) ∧
      (∀ entry ∈ tasks, ∃ task fields, later.tasks.get? entry.2 = some task ∧
        rt.executeTask task.taskType task.payload = .ok fields) ∧
      ∀ (responses : List Message) (functions : String → Option Callable),
        (∀ response ∈ responses, response.identified = true) →
        (∀ entry ∈ tasks, ∃ task response, later.tasks.get? entry.2 = some task ∧
          lastAnswer entry.2 responses = some response ∧ ResultOf rt task response) →
        (∀ d, reduceGrouped { rt with functions := functions } (.ofStrings grouped) name = .ok d ↔
          collectReduceResults rt tasks responses = .ok d) ∧
        ((∃ text, reduceGrouped { rt with functions := functions } (.ofStrings grouped) name =
            .error ⟨"ValueError", text⟩) ↔
          ∃ text, collectReduceResults rt tasks responses = .error (.valueError text)) := by
  obtain ⟨operation, named⟩ := Option.isSome_iff_exists.mp builtIn
  obtain ⟨later, built, stored⟩ := buildReduceJob_stored name grouped fresh
  have integersOf {e : String × List Val} (member : e ∈ grouped.entries) : ∀ v ∈ e.2, isFloat v = false :=
    integers e.2 (List.mem_map_of_mem member)
  have executed (e : String × List Val) : rt.runTask "REDUCE" ([(.str "operation", .str name)] ++
      [(.str "key", .str e.1), (.str "values", .list e.2)]) = reduceValues rt operation e.2 :=
    executeReduce_task named e.1 e.2
  refine ⟨_, later, built, ?_, ?_⟩
  · intro entry member
    obtain ⟨e, there, rfl⟩ := List.mem_map.mp member
    rcases @reduceValues_cases rt operation e.2 (integersOf there) with ⟨value, done⟩ | ⟨code, message, failed⟩
    · exact ⟨_, _, stored e there, by rw [Runtime.executeTask, executed, done]⟩
    · exact ⟨_, _, stored e there, by rw [Runtime.executeTask, executed, failed]⟩
  · intro responses functions identified answers
    obtain ⟨index, indexed, last⟩ := index_ok identified
    have collected : collectReduceResults rt
        (grouped.entries.map (fun e => (Key.str e.1, reduceTaskId rt jobId (.str e.1)))) responses =
          grouped.entries.foldlM (fun reduced e =>
            collectReduceResult rt index reduced (Key.str e.1, reduceTaskId rt jobId (.str e.1))) .empty := by
      rw [collectReduceResults, indexed]
      exact List.foldlM_map ..
    have inPlace : reduceGrouped { rt with functions := functions } (.ofStrings grouped) name =
        grouped.entries.foldlM (fun reduced e =>
          reduceGroup { rt with functions := functions } name reduced (.str e.1, e.2)) .empty := by
      rw [reduceGrouped, if_neg (by simp [named]), ObjectDict.items_ofStrings]
      exact List.foldlM_map ..
    rw [collected, inPlace]
    refine agree_of_alike (p := fun text => (⟨"ValueError", text⟩ : Exn)) (q := PyError.valueError)
      (foldlM_alike ?_ ObjectDict.empty)
    intro e member reduced
    obtain ⟨task, response, held, answer, result⟩ := answers (Key.str e.1, reduceTaskId rt jobId (.str e.1))
      (List.mem_map_of_mem member)
    obtain rfl := Option.some.inj ((stored e member).symm.trans held)
    exact reduceGroup_alike named functions (integersOf member) (executed e) ((last _).trans answer) result reduced

/-- A key with a boolean among its values: both ways raise ValueError. -/
theorem booleanGroup_agrees :
    ∃ tasks later, buildReduceJob bareRuntime ⟨∅, ∅⟩ "j" (.ofStrings ⟨[("a", [.int 1, .bool true])], by decide⟩)
        (.registered "SUM") = (.ok tasks, later) ∧
      ∀ responses : List Message, (∀ response ∈ responses, response.identified = true) →
        (∀ entry ∈ tasks, ∃ task response, later.tasks.get? entry.2 = some task ∧
          lastAnswer entry.2 responses = some response ∧ ResultOf bareRuntime task response) →
        ∃ text, collectReduceResults bareRuntime tasks responses = .error (.valueError text) := by
  obtain ⟨tasks, later, built, -, agree⟩ := @reduceGrouped_dispatched bareRuntime ⟨∅, ∅⟩ "j" "SUM"
    ⟨[("a", [.int 1, .bool true])], by decide⟩ (by decide) (by decide) (fun _ => rfl)
  refine ⟨tasks, later, built, fun responses identified answers => ?_⟩
  exact (agree responses bareRuntime.functions identified answers).2.mp ⟨_, rfl⟩

end DistributedCompute
