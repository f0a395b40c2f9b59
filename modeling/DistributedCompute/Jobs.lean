import DistributedCompute.Executor
import DistributedCompute.Scheduler
import DistributedCompute.Grouping

/-! The job layer: `jobs/map.py`, `jobs/shuffle.py`, `jobs/reduce.py` and
`jobs/map_reduce.py`. Submitting tasks returns what it returned or raised
together with the scheduler it left. A response's payload was decoded from JSON. -/
namespace DistributedCompute
open Py

inductive PyError
  | valueError (text : String)
  | typeError (text : String)
  | keyError (text : String)
  | serializationError (text : String)
  deriving DecidableEq, Repr

/-- How a MAP or REDUCE operation is run; a plain string stands for `registered`. -/
inductive ExecutionSpec
  | registered (operation : String)
  | serialized (fn : Callable)

/-- A dict keyed by hashable objects: stored under the canonical form of a key is
the object first given as that key, and the value. -/
def ObjectDict (ν : Type) := Dict Key (Key × ν)

namespace ObjectDict
variable {ν : Type}

def empty : ObjectDict ν := Dict.empty

def get? (d : ObjectDict ν) (key : Key) : Option ν := (Dict.get? d key.canon).map Prod.snd

def set (d : ObjectDict ν) (key : Key) (value : ν) : ObjectDict ν :=
  Dict.insert d key.canon (((Dict.get? d key.canon).map Prod.fst).getD key, value)

def items (d : ObjectDict ν) : List (Key × ν) := Dict.values d

end ObjectDict

/-! ### Submitting the tasks of a job -/

structure Submission where
  taskId : TaskId
  taskType : String
  payload : List (Key × Val)

def SchedulerError.toPyError : SchedulerError → PyError
  | .valueError text => .valueError text
  | .taskNotFound text | .noAvailableWorker text | .workerNotFound text => .keyError text

/-- The submitted tasks, or the exception of the first `submit_task` that raises. -/
def submitAll : Scheduler → List Submission → Except PyError (List (TaskId × Task)) × Scheduler
  | s, [] => (.ok [], s)
  | s, next :: rest =>
    match s.submitTask next.taskId next.taskType next.payload with
    | (.error e, s') => (.error e.toPyError, s')
    | (.ok task, s') => ((submitAll s' rest).1.map ((next.taskId, task) :: ·), (submitAll s' rest).2)

/-- A loop that makes each submission first, which may raise. -/
def submitEach : Scheduler → List (Except PyError Submission) → Except PyError (List (TaskId × Task)) × Scheduler
  | s, [] => (.ok [], s)
  | s, .error e :: _ => (.error e, s)
  | s, .ok next :: rest =>
    match s.submitTask next.taskId next.taskType next.payload with
    | (.error e, s') => (.error e.toPyError, s')
    | (.ok task, s') => ((submitEach s' rest).1.map ((next.taskId, task) :: ·), (submitEach s' rest).2)

theorem submitEach_ok (s : Scheduler) (submissions : List Submission) :
    submitEach s (submissions.map .ok) = submitAll s submissions := by
  induction submissions generalizing s with
  | nil => rfl
  | cons next rest ih =>
    rw [List.map_cons, submitEach, submitAll]
    split
    · rfl
    · rw [ih]

/-- The payload fields that select the operation. -/
def operationFields (rt : Runtime) : ExecutionSpec → Except PyError (List (Key × Val))
  | .registered operation => .ok [(.str "operation", .str operation)]
  | .serialized fn =>
    match rt.serialize fn with
    | .error text => .error (.serializationError text)
    | .ok encoded => .ok [(.str "execution_mode", .str "serialized_callable"), (.str "callable", .str encoded)]

/-! ### Map -/

/-- One turn of the loop in `partition`: the next chunk, and where it ends. -/
def nextChunk {α : Type} (data : List α) (chunkSize remainder : Nat) (chunks : List (List α) × Nat) (i : Nat) :
    List (List α) × Nat :=
  let size := chunkSize + (if i < remainder then 1 else 0)
  (chunks.1 ++ [(data.drop chunks.2).take size], chunks.2 + size)

def partition {α : Type} (data : List α) (numPartitions : Int) : Except PyError (List (List α)) :=
  if numPartitions < 1 then .error (.valueError "num_partitions must be at least 1")
  else if data.isEmpty then .ok []
  else
    let count := min numPartitions.toNat data.length
    .ok ((List.range count).foldl (nextChunk data (data.length / count) (data.length % count)) ([], 0)).1

def mapTaskId (jobId : String) (index : Nat) : TaskId := s!"{jobId}-map-{index}"

def buildMapJob (rt : Runtime) (s : Scheduler) (jobId : String) (operation : ExecutionSpec) (data : List Val)
    (numPartitions : Int) : Except PyError (List (TaskId × Task)) × Scheduler :=
  match operationFields rt operation with
  | .error e => (.error e, s)
  | .ok fields =>
    match partition data numPartitions with
    | .error e => (.error e, s)
    | .ok chunks => submitAll s (chunks.mapIdx (fun index chunk =>
      ⟨mapTaskId jobId index, "MAP", fields ++ [(.str "data", .list chunk)]⟩))

/-- One turn of `_index_responses_by_task_id`. A task_id that is no string is
entered under a key that no task has. -/
def indexResponse (index : Dict TaskId Message) (response : Message) : Except PyError (Dict TaskId Message) :=
  match ((response.get? "task_id").getD .none).lookup with
  | .unhashable ty => .error (.typeError s!"unhashable type: '{ty}'")
  | .absent => .ok index
  | .named t => .ok (index.insert t response)

def indexResponsesByTaskId (responses : List Message) : Except PyError (Dict TaskId Message) :=
  responses.foldlM indexResponse ∅

/-- `payload.get("status") == "success"`. -/
def Message.succeeded (response : Message) : Bool :=
  match response.get? "status" with
  | some (.str status) => status = "success"
  | _ => false

/-- `payload.get("message") or payload.get("code")`. -/
def Message.failure (response : Message) : Val :=
  if ((response.get? "message").getD .none).truthy then (response.get? "message").getD .none
  else (response.get? "code").getD .none

/-- One turn of `collect_map_results`. -/
def collectMapResult (rt : Runtime) (index : Dict TaskId Message) (combined : List Val) (task : TaskId × Task) :
    Except PyError (List Val) :=
  match index.get? task.1 with
  | none => .error (.valueError s!"No response received for task {task.1}")
  | some response =>
    if response.succeeded then
      match response.get? "result" with
      | none => .error (.keyError "'result'")
      | some result =>
        match result.elements with
        | .error ty => .error (.typeError s!"'{ty}' object is not iterable")
        | .ok elements => .ok (combined ++ elements)
    else .error (.valueError s!"Map task {task.1} failed: {rt.format response.failure}")

def collectMapResults (rt : Runtime) (tasks : List (TaskId × Task)) (responses : List Message) :
    Except PyError (List Val) := do
  let index ← indexResponsesByTaskId responses
  tasks.foldlM (collectMapResult rt index) []

inductive ResultStatus
  | success
  | error
  deriving DecidableEq, Repr

structure IntermediateResult where
  jobId : String
  partitionId : Nat
  taskId : TaskId
  status : ResultStatus
  data : Val
  message : Val
  workerId : Option WorkerId
  attempt : Val

def intermediateResult (jobId : String) (index : Dict TaskId Message) (partitionId : Nat)
    (task : TaskId × Task) : Except PyError IntermediateResult :=
  match index.get? task.1 with
  | none => .ok ⟨jobId, partitionId, task.1, .error, .none, .str "No response received",
      task.2.assignedWorkerId, .int task.2.attempt⟩
  | some response =>
    let attempt := (response.get? "attempt").getD (.int task.2.attempt)
    if response.succeeded then
      match response.get? "result" with
      | none => .error (.keyError "'result'")
      | some result =>
        .ok ⟨jobId, partitionId, task.1, .success, result, .none, task.2.assignedWorkerId, attempt⟩
    else .ok ⟨jobId, partitionId, task.1, .error, .none, response.failure, task.2.assignedWorkerId, attempt⟩

def buildIntermediateResults (jobId : String) (tasks : List (TaskId × Task)) (responses : List Message) :
    Except PyError (List IntermediateResult) := do
  let index ← indexResponsesByTaskId responses
  (tasks.mapIdx (fun partitionId task => (partitionId, task))).mapM
    (fun entry => intermediateResult jobId index entry.1 entry.2)

/-! ### Shuffle -/

/-- `key, value = pair` and `grouped.setdefault(key, []).append(value)`. -/
def shufflePair (grouped : ObjectDict (List Val)) (pair : Val) : Except PyError (ObjectDict (List Val)) :=
  match pair.elements with
  | .error ty => .error (.typeError s!"cannot unpack non-iterable {ty} object")
  | .ok [key, value] =>
    match key.key? with
    | .error ty => .error (.typeError s!"unhashable type: '{ty}'")
    | .ok key => .ok (grouped.set key ((grouped.get? key).getD [] ++ [value]))
  | .ok elements =>
    if elements.length < 2 then
      .error (.valueError s!"not enough values to unpack (expected 2, got {elements.length})")
    else .error (.valueError "too many values to unpack (expected 2)")

def shuffleResult (grouped : ObjectDict (List Val)) (result : IntermediateResult) :
    Except PyError (ObjectDict (List Val)) :=
  match result.status, result.data with
  | .error, _ => .ok grouped
  | .success, .none => .ok grouped
  | .success, data =>
    match data.elements with
    | .error ty => .error (.typeError s!"'{ty}' object is not iterable")
    | .ok pairs => pairs.foldlM shufflePair grouped

def shuffle (results : List IntermediateResult) : Except PyError (ObjectDict (List Val)) :=
  results.foldlM shuffleResult .empty

/-! ### Reduce -/

/-- One turn of `reduce_grouped`. -/
def reduceGroup (rt : Runtime) (operation : String) (reduced : ObjectDict Val) (item : Key × List Val) :
    Except Exn (ObjectDict Val) :=
  match rt.executeReduce [(.str "operation", .str operation), (.str "values", .list item.2)] with
  | .ok result => .ok (reduced.set item.1 result)
  | .error (.execution _ message) =>
    .error ⟨"ValueError", s!"Reduce for key {rt.repr item.1.val} failed: {message}"⟩
  | .error (.other exn) => .error exn

def reduceGrouped (rt : Runtime) (grouped : ObjectDict (List Val)) (operation : String) :
    Except Exn (ObjectDict Val) :=
  if (reduceOperation? operation).isNone then .error ⟨"ValueError", s!"Unsupported REDUCE operation: {operation}"⟩
  else grouped.items.foldlM (reduceGroup rt operation) .empty

def reduceTaskId (rt : Runtime) (jobId : String) (key : Key) : TaskId := s!"{jobId}-reduce-{rt.format key.val}"

/-- The text of the ValueError that formatting a key raises, if it does. -/
def keyFormatError : Key → Option String
  | .int n => intJsonError n
  | _ => none

/-- The task of a key. -/
def reduceSubmission (rt : Runtime) (jobId : String) (fields : List (Key × Val)) (item : Key × List Val) :
    Submission :=
  ⟨reduceTaskId rt jobId item.1, "REDUCE", fields ++ [(.str "key", item.1.val), (.str "values", .list item.2)]⟩

/-- A turn of the loop in `build_reduce_job` up to `submit_task`: the key is formatted
first, which an integer of too many digits does not survive. -/
def reduceRequest (rt : Runtime) (jobId : String) (fields : List (Key × Val)) (item : Key × List Val) :
    Except PyError Submission :=
  match keyFormatError item.1 with
  | some text => .error (.valueError text)
  | none => .ok (reduceSubmission rt jobId fields item)

def buildReduceJob (rt : Runtime) (s : Scheduler) (jobId : String) (grouped : ObjectDict (List Val))
    (operation : ExecutionSpec) : Except PyError (List (Key × TaskId)) × Scheduler :=
  match operationFields rt operation with
  | .error e => (.error e, s)
  | .ok fields =>
    let submitted := submitEach s (grouped.items.map (reduceRequest rt jobId fields))
    (submitted.1.map (fun _ => grouped.items.map (fun item => (item.1, reduceTaskId rt jobId item.1))), submitted.2)

def collectReduceResult (rt : Runtime) (index : Dict TaskId Message) (reduced : ObjectDict Val)
    (task : Key × TaskId) : Except PyError (ObjectDict Val) :=
  match index.get? task.2 with
  | none => .error (.valueError s!"No response received for key {rt.repr task.1.val} (task {task.2})")
  | some response =>
    if response.succeeded then
      match response.get? "result" with
      | none => .error (.keyError "'result'")
      | some result => .ok (reduced.set task.1 result)
    else .error (.valueError s!"Reduce for key {rt.repr task.1.val} failed: {rt.format response.failure}")

def collectReduceResults (rt : Runtime) (tasks : List (Key × TaskId)) (responses : List Message) :
    Except PyError (ObjectDict Val) := do
  let index ← indexResponsesByTaskId responses
  tasks.foldlM (collectReduceResult rt index) .empty

/-! ### MapReduce -/

/-- `dispatch(task_ids)`: the responses it returns, and the scheduler it leaves. -/
abbrev DispatchFn := Scheduler → List TaskId → List Message × Scheduler

/-- What a call of `run_map_reduce` got from its two dispatches and how it ended. -/
structure MapReduceRun where
  mapResponses : List Message
  reduceResponses : List Message
  outcome : Except PyError (ObjectDict Val)
  scheduler : Scheduler

def runMapReduce (rt : Runtime) (s : Scheduler) (dispatch : DispatchFn) (jobId : String) (data : List Val)
    (mapOperation reduceOperation : ExecutionSpec) (numPartitions : Int) : MapReduceRun :=
  match buildMapJob rt s jobId mapOperation data numPartitions with
  | (.error e, s₁) => ⟨[], [], .error e, s₁⟩
  | (.ok tasks, s₁) =>
    let mapped := dispatch s₁ (tasks.map Prod.fst)
    -- the task objects are read again, as the dispatch left them
    let current := tasks.map (fun task => (task.1, (mapped.2.tasks.get? task.1).getD task.2))
    match (buildIntermediateResults jobId current mapped.1).bind shuffle with
    | .error e => ⟨mapped.1, [], .error e, mapped.2⟩
    | .ok grouped =>
      match buildReduceJob rt mapped.2 jobId grouped reduceOperation with
      | (.error e, s₃) => ⟨mapped.1, [], .error e, s₃⟩
      | (.ok reduceTasks, s₃) =>
        let reduced := dispatch s₃ (reduceTasks.map Prod.snd)
        ⟨mapped.1, reduced.1, collectReduceResults rt reduceTasks reduced.1, reduced.2⟩

end DistributedCompute
