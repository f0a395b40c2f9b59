import DistributedCompute.Json
import DistributedCompute.MapReduce

/-! `serve_tasks` of `worker/async_worker.py` over the in-process backend: which tasks
a worker answers. An exception that leaves `execute_task`, or that printing or sending
its result raises, ends the loop and with it the connection to the master. -/
namespace DistributedCompute
open Py Raising

/-! ### Computations that raise nothing but `ExecutionError` -/

def Contained {α : Type} (x : Except Raised α) : Prop := ∀ exn, x ≠ .error (.other exn)

section Contained
variable {α β : Type}
variable {f : α → Except Raised β}

@[simp] theorem contained_ok (a : α) : Contained (.ok a : Except Raised α) := fun _ h => by cases h

@[simp] theorem contained_pure (a : α) : Contained (pure a : Except Raised α) := contained_ok a

@[simp] theorem contained_execution (code : ExecutionErrorCode) (message : String) :
    Contained (.error (.execution code message) : Except Raised α) := fun _ h => by cases h

@[simp] theorem contained_invalidArguments (message : String) :
    Contained (.error (invalidArguments message) : Except Raised α) := contained_execution _ _

@[simp] theorem not_contained_other (exn : Exn) : ¬Contained (.error (.other exn) : Except Raised α) :=
  fun contained => contained exn rfl

theorem contained_bind_iff {x : Except Raised α} :
    Contained (x >>= f) ↔ Contained x ∧ ∀ a, x = .ok a → Contained (f a) := by
  cases x with
  | ok a =>
    have same : (Except.ok a >>= f) = f a := rfl
    simp [same]
  | error raised =>
    have same : ((Except.error raised : Except Raised α) >>= f) = .error raised := rfl
    rw [same]
    cases raised <;> simp

theorem contained_mapM {xs : List α} (each : ∀ a ∈ xs, Contained (f a)) :
    Contained (xs.mapM f) := by
  induction xs with
  | nil => exact contained_ok _
  | cons a rest ih =>
    rw [List.forall_mem_cons] at each
    rw [List.mapM_cons, contained_bind_iff]
    refine ⟨each.1, fun b _ => ?_⟩
    rw [contained_bind_iff]
    exact ⟨ih each.2, fun bs _ => contained_ok _⟩

end Contained

namespace Runtime
variable {rt : Runtime}

/-! ### Outcomes of user code -/

/-- The worker can report what a user function does: its exception has a text, or
`json.dumps` has the stack to walk its result. -/
def reportable (rt : Runtime) : Except UserExn Val → Bool
  | .ok result => result.jsonFault false rt.jsonDepth ≠ some .recursionError
  | .error exn => exn.text.isOk

/-- The calls of `_apply_to_each`, up to the first that raises. -/
def mapCalls (fn : Callable) (data : List Val) : Except UserExn Val :=
  (data.mapM (fun value => fn [value] [])).map .list

variable {operation taskType : String} {a b : Val}

theorem contained_check_iff {result : Val} :
    Contained (rt.checkResultIsJsonSafe result operation) ↔ rt.reportable (.ok result) = true := by
  unfold checkResultIsJsonSafe reportable
  cases found : result.jsonFault false rt.jsonDepth with
  | none => simp [found]
  | some fault => cases fault <;> simp [found]

variable {outcome : Except UserExn Val} {use : Callable → Except UserExn Val} {v : Val} {values : List Val}

theorem contained_userResult_iff :
    Contained (userResult outcome) ↔ ∀ exn, outcome = .error exn → exn.text.isOk = true := by
  cases outcome with
  | ok result => simp [userResult]
  | error exn => cases text : exn.text <;> simp [userResult, text, Except.isOk, Except.toBool]

/-- A call of user code and the check of its result. -/
theorem contained_called_iff :
    Contained (do
      let result ← userResult outcome
      rt.checkResultIsJsonSafe result operation
      return result) ↔ rt.reportable outcome = true := by
  rw [contained_bind_iff, contained_userResult_iff]
  cases outcome with
  | ok result =>
    have checked : Contained (do
        rt.checkResultIsJsonSafe result operation
        return result) ↔ rt.reportable (.ok result) = true := by
      rw [contained_bind_iff, contained_check_iff]
      simp
    simp only [userResult, Except.ok.injEq, forall_eq', checked]
    simp
  | error exn =>
    refine ⟨fun contained => contained.1 exn rfl, fun fits => ⟨fun _ same => ?_, fun result never => ?_⟩⟩
    · rwa [← Except.error.inj same]
    · cases text : exn.text <;> simp [userResult, text] at never

/-- The first call that raises decides what `_apply_to_each` raises. -/
theorem mapM_userResult (fn : Callable) (data : List Val) :
    (data.mapM (fun value => userResult (fn [value] []))).map Val.list = userResult (mapCalls fn data) := by
  unfold mapCalls
  induction data with
  | nil => rfl
  | cons value rest ih =>
    rw [List.mapM_cons, List.mapM_cons]
    cases fn [value] [] with
    | error exn => cases text : exn.text <;> simp [userResult, text, bind, Except.bind, Except.map]
    | ok first =>
      cases calls : rest.mapM (fun value => fn [value] []) with
      | ok later =>
        rw [calls] at ih
        cases reports : rest.mapM (fun value => userResult (fn [value] [])) with
        | ok mapped =>
          rw [reports] at ih
          cases ih
          rfl
        | error raised =>
          rw [reports] at ih
          cases ih
      | error exn =>
        rw [calls] at ih
        cases reports : rest.mapM (fun value => userResult (fn [value] [])) with
        | ok mapped =>
          rw [reports] at ih
          cases text : exn.text <;> simp [Except.map, userResult, text] at ih
        | error raised =>
          rw [reports] at ih
          exact ih

theorem contained_mapUser_iff {fn : Callable} {data : List Val} :
    Contained (rt.mapUser fn data operation) ↔ rt.reportable (mapCalls fn data) = true := by
  have same : rt.mapUser fn data operation = (do
      let result ← userResult (mapCalls fn data)
      rt.checkResultIsJsonSafe result operation
      return result) := by
    rw [← mapM_userResult, mapUser]
    cases data.mapM (fun value => userResult (fn [value] [])) <;> rfl
  rw [same, contained_called_iff]

/-! ### Payloads that the handlers admit -/

/-- The callable that the payload carries is decoded and used, or the failure to decode it
is a `SerializationError`. -/
def admitsCarried (rt : Runtime) (payload : List (Key × Val)) (use : Callable → Except UserExn Val) : Bool :=
  match entry "callable" payload with
  | some (.str encoded) =>
    encoded = "" ||
      match rt.deserialize encoded with
      | .ok fn => rt.reportable (use fn)
      | .error (.serializationError _) => true
      | .error (.other _) => false
  | _ => true

/-- The operation of MAP and REDUCE is a name, or hashable and with a text. -/
def admitsNamed {β : Type} (rt : Runtime) (builtIn : String → Option β) (operation : Option Val)
    (admitted : β → Bool) (use : Callable → Except UserExn Val) : Bool :=
  match (operation.getD .none).lookup with
  | .unhashable _ => false
  | .absent => ((operation.getD .none).reprFault rt.reprDepth).isNone
  | .named name =>
    match builtIn name with
    | some chosen => admitted chosen
    | none => (rt.functions name).all (fun fn => rt.reportable (use fn))

/-- An operator applies to two numbers: an integer next to a float fits into one. -/
def mixes : Val → Val → Bool
  | .int _, .int _ => true
  | a, b => !(tooLarge a || tooLarge b)

def admitsNumbers (payload : List (Key × Val)) : Bool :=
  match entry "a" payload, entry "b" payload with
  | some a, some b => !(isNumber a && isNumber b) || mixes a b
  | _, _ => true

def admitsMap (rt : Runtime) (payload : List (Key × Val)) : Bool :=
  match entry "data" payload with
  | some (.list data) =>
    if isSerialized payload then rt.admitsCarried payload (fun fn => mapCalls fn data)
    else rt.admitsNamed mapOperation? (entry "operation" payload) (fun _ => true) (fun fn => mapCalls fn data)
  | _ => true

/-- SUM over numbers converts no integer that is too large. -/
def summable (values : List Val) (operation : ReduceOperation) : Bool :=
  operation ≠ .sum || !(values.all isNumber && sumOverflows (some 0) values)

def admitsReduce (rt : Runtime) (payload : List (Key × Val)) : Bool :=
  match entry "values" payload with
  | some (.list (first :: rest)) =>
    if isSerialized payload then rt.admitsCarried payload (fun fn => fn [.list (first :: rest)] [])
    else rt.admitsNamed reduceOperation? (entry "operation" payload) (summable (first :: rest))
      (fun fn => fn [.list (first :: rest)] [])
  | _ => true

def admitsRegistered (rt : Runtime) (operation : String) (payload : Val) : Bool :=
  match rt.functions operation, payload with
  | some fn, .dict kwargs => rt.reportable (fn [] kwargs)
  | _, _ => true

def admitsSerializedCallable (rt : Runtime) (payload : List (Key × Val)) : Bool :=
  match (entry "args" payload).getD (.list []), (entry "kwargs" payload).getD (.dict []) with
  | .list args, .dict kwargs => rt.admitsCarried payload (fun fn => fn args kwargs)
  | _, _ => true

/-- The execution mode of EXECUTE is known, or has a text. -/
def admitsEnvelope (rt : Runtime) (payload : List (Key × Val)) : Bool :=
  match entry "execution_mode" payload with
  | some (.str "registered") =>
    match entry "operation" payload with
    | some (.str operation) =>
      operation = "" || rt.admitsRegistered operation ((entry "payload" payload).getD (.dict []))
    | _ => true
  | some (.str "serialized_callable") => rt.admitsSerializedCallable payload
  | mode => ((mode.getD .none).reprFault rt.reprDepth).isNone

/-- What a task has to satisfy for its handler to raise nothing but `ExecutionError`. User
code has a part in it only where the handler calls it, with the arguments of that call. -/
def admits (rt : Runtime) (taskType : String) (payload : List (Key × Val)) : Bool :=
  match taskType with
  | "ADD" | "MULTIPLY" => admitsNumbers payload
  | "MAP" => rt.admitsMap payload
  | "REDUCE" => rt.admitsReduce payload
  | "EXECUTE" => rt.admitsEnvelope payload
  | _ => rt.admitsRegistered taskType (.dict payload)

/-- A handler that decodes the callable of the payload and goes on with it. -/
theorem contained_carried_iff {run : Callable → Except Raised Val}
    (uses : ∀ fn, Contained (run fn) ↔ rt.reportable (use fn) = true) :
    Contained (rt.deserializeCallableField payload >>= run) ↔ rt.admitsCarried payload use = true := by
  rw [contained_bind_iff]
  unfold deserializeCallableField admitsCarried
  cases entry "callable" payload with
  | none => simp
  | some carried =>
    cases carried with
    | str encoded =>
      by_cases empty : encoded = ""
      · simp [empty]
      · cases decoded : rt.deserialize encoded with
        | ok fn => simp [empty, decoded, uses]
        | error fault => cases fault <;> simp [empty, decoded]
    | none | bool | int | float | list | tuple | dict | object => simp

theorem contained_onFloats_iff {operator : Val → Val → Val} :
    Contained (onFloats operator a b) ↔ (!(tooLarge a || tooLarge b)) = true := by
  unfold onFloats
  cases tooLarge a <;> cases tooLarge b <;> simp [overflowError]

theorem contained_add_iff : Contained (rt.add a b) ↔ mixes a b = true := by
  cases a with
  | int m =>
    cases b with
    | int n => exact iff_of_true (contained_ok _) rfl
    | none | bool | float | str | list | tuple | dict | object => exact contained_onFloats_iff
  | none | bool | float | str | list | tuple | dict | object => exact contained_onFloats_iff

theorem contained_mul_iff : Contained (rt.mul a b) ↔ mixes a b = true := by
  cases a with
  | int m =>
    cases b with
    | int n => exact iff_of_true (contained_ok _) rfl
    | none | bool | float | str | list | tuple | dict | object => exact contained_onFloats_iff
  | none | bool | float | str | list | tuple | dict | object => exact contained_onFloats_iff

/-- ADD and MULTIPLY. -/
theorem contained_numbers_iff {operate : Val → Val → Except Raised Val}
    (operates : ∀ a b, Contained (operate a b) ↔ mixes a b = true) :
    Contained (do
      let (a, b) ← requireNumbers payload
      operate a b) ↔ admitsNumbers payload = true := by
  rw [contained_bind_iff]
  unfold requireNumbers admitsNumbers
  cases entry "a" payload with
  | none => simp
  | some a =>
    cases entry "b" payload with
    | none => simp
    | some b => cases numbers : isNumber a && isNumber b <;> simp [numbers, operates]

theorem contained_requireText_iff :
    Contained (rt.requireText v) ↔ (v.reprFault rt.reprDepth).isNone = true := by
  unfold requireText
  split <;> rename_i fault <;> simp [fault]

/-- An error that quotes a value. -/
theorem contained_quoting_iff {α : Type} {code : ExecutionErrorCode} {message : String} :
    Contained (do
      rt.requireText v
      (.error (.execution code message) : Except Raised α)) ↔ (v.reprFault rt.reprDepth).isNone = true := by
  rw [contained_bind_iff, contained_requireText_iff]
  simp

/-- A handler that looks its operation up and goes on with what it selects. -/
theorem contained_named_iff {β : Type} {builtIn : String → Option β} {kind : String} {operation : Option Val}
    {run : β ⊕ Callable × String → Except Raised Val} {admitted : β → Bool}
    (builtIns : ∀ chosen, Contained (run (.inl chosen)) ↔ admitted chosen = true)
    (uses : ∀ fn name, Contained (run (.inr (fn, name))) ↔ rt.reportable (use fn) = true) :
    Contained (rt.resolve builtIn kind operation >>= run) ↔ rt.admitsNamed builtIn operation admitted use = true := by
  rw [contained_bind_iff]
  unfold resolve admitsNamed
  cases (operation.getD .none).lookup with
  | unhashable ty => simp
  | absent =>
    rw [contained_quoting_iff]
    refine and_iff_left fun chosen resolved => ?_
    obtain ⟨_, _, never⟩ := bind_eq_ok.mp resolved
    cases never
  | named name =>
    dsimp only
    cases builtIn name with
    | some chosen => simp [builtIns]
    | none => cases rt.functions name <;> simp [uses]

/-- A number next to itself, to 1 or to 2. -/
theorem contained_applyMapOperation (operation : MapOperation) (value : Val) :
    Contained (rt.applyMapOperation operation value) := by
  unfold applyMapOperation
  split
  · split <;> simp
  · simp
  · split
    · simp
    · rename_i number
      have small : overflowsFloat 1 = false ∧ overflowsFloat 2 = false := by decide +kernel
      cases value with
      | int | float => split <;> simp [contained_mul_iff, contained_add_iff, mixes, tooLarge, small]
      | none | bool | str | list | tuple | dict | object => simp [isNumber] at number

theorem sumOverflows_ints {ns : List Int} (ints : intValues values = some ns) (total : Int) :
    sumOverflows (some total) values = false := by
  induction values generalizing ns total with
  | nil => rfl
  | cons v rest ih =>
    cases v with
    | int n =>
      obtain ⟨later, others, _⟩ := Option.map_eq_some_iff.mp ints
      exact ih others (total + n)
    | none | bool | float | str | list | tuple | dict | object => cases ints

theorem contained_sum_iff :
    Contained (rt.sum values) ↔ sumOverflows (some 0) values = false := by
  unfold sum
  split
  · rename_i ints
    simp [sumOverflows_ints ints]
  · split <;> rename_i overflows <;> simp [overflows, overflowError]

theorem contained_applyReduceOperation_iff {operation : ReduceOperation} {first : Val} {rest : List Val} :
    Contained (rt.applyReduceOperation operation (first :: rest)) ↔ summable (first :: rest) operation = true := by
  unfold applyReduceOperation summable
  cases numbers : (first :: rest).all isNumber with
  | false => simp
  | true => cases operation <;> simp [extreme, contained_sum_iff]

/-! ### Each handler -/

variable {payload : List (Key × Val)}

theorem contained_executeMap_iff : Contained (rt.executeMap payload) ↔ rt.admitsMap payload = true := by
  unfold executeMap admitsMap
  generalize entry "data" payload = given
  split
  · split
    · exact contained_carried_iff fun _ => contained_mapUser_iff
    · refine contained_named_iff (fun operation => iff_of_true ?_ rfl) (fun _ _ => ?_)
      · refine contained_bind_iff.mpr ⟨contained_mapM fun v _ => contained_applyMapOperation operation v, ?_⟩
        exact fun _ _ => contained_ok _
      · exact contained_mapUser_iff
  · simp

theorem contained_executeReduce_iff : Contained (rt.executeReduce payload) ↔ rt.admitsReduce payload = true := by
  unfold executeReduce admitsReduce
  generalize entry "values" payload = given
  split
  · split
    · exact contained_carried_iff fun _ => contained_called_iff
    · refine contained_named_iff (fun _ => ?_) (fun _ _ => ?_)
      · exact contained_applyReduceOperation_iff
      · exact contained_called_iff
  · simp

theorem contained_executeRegistered_iff {arguments : Val} :
    Contained (rt.executeRegistered operation arguments) ↔ rt.admitsRegistered operation arguments = true := by
  unfold executeRegistered admitsRegistered
  cases rt.functions operation with
  | none => simp
  | some fn =>
    cases arguments with
    | dict kwargs => exact contained_called_iff
    | none | bool | int | float | str | list | tuple | object => simp

theorem contained_executeSerializedCallable_iff :
    Contained (rt.executeSerializedCallable payload) ↔ rt.admitsSerializedCallable payload = true := by
  unfold executeSerializedCallable admitsSerializedCallable
  cases (entry "args" payload).getD (.list []) with
  | list args =>
    cases (entry "kwargs" payload).getD (.dict []) with
    | dict kwargs => exact contained_carried_iff fun _ => contained_called_iff
    | none | bool | int | float | str | list | tuple | object => simp
  | none | bool | int | float | str | tuple | dict | object => simp

theorem admitsEnvelope_other (registered : entry "execution_mode" payload ≠ some (.str "registered"))
    (serialized : entry "execution_mode" payload ≠ some (.str "serialized_callable")) :
    rt.admitsEnvelope payload =
      (((entry "execution_mode" payload).getD .none).reprFault rt.reprDepth).isNone := by
  unfold admitsEnvelope
  split
  · exact absurd ‹_› registered
  · exact absurd ‹_› serialized
  · rfl

theorem contained_executeEnvelope_iff :
    Contained (rt.executeEnvelope payload) ↔ rt.admitsEnvelope payload = true := by
  unfold executeEnvelope
  split
  · rename_i mode
    simp only [admitsEnvelope, mode]
    cases entry "operation" payload with
    | none => simp
    | some named =>
      cases named with
      | str operation =>
        by_cases empty : operation = ""
        · simp [empty]
        · simp [empty, contained_executeRegistered_iff]
      | none | bool | int | float | list | tuple | dict | object => simp
  · rename_i mode
    simp only [admitsEnvelope, mode]
    exact contained_executeSerializedCallable_iff
  · rename_i registered serialized
    rw [admitsEnvelope_other registered serialized]
    exact contained_quoting_iff

theorem admits_other (add : taskType ≠ "ADD") (multiply : taskType ≠ "MULTIPLY") (map : taskType ≠ "MAP")
    (reduce : taskType ≠ "REDUCE") (execute : taskType ≠ "EXECUTE") :
    rt.admits taskType payload = rt.admitsRegistered taskType (.dict payload) := by
  unfold admits
  split
  all_goals first | contradiction | rfl

theorem contained_runTask_iff :
    Contained (rt.runTask taskType payload) ↔ rt.admits taskType payload = true := by
  unfold runTask
  split
  · exact contained_numbers_iff fun _ _ => contained_add_iff
  · exact contained_numbers_iff fun _ _ => contained_mul_iff
  · exact contained_executeMap_iff
  · exact contained_executeReduce_iff
  · exact contained_executeEnvelope_iff
  · rename_i add multiply map reduce execute
    rw [admits_other add multiply map reduce execute]
    exact contained_executeRegistered_iff

theorem executeTask_ok_iff :
    (∃ fields, rt.executeTask taskType payload = .ok fields) ↔ Contained (rt.runTask taskType payload) := by
  unfold executeTask
  cases rt.runTask taskType payload with
  | ok result => simp
  | error raised => cases raised <;> simp

/-- What a caller of `execute_task` can get. -/
inductive Reports : List (String × Val) → Prop
  | success (result : Val) : Reports [("status", .str "success"), ("result", result)]
  | error (code : ExecutionErrorCode) (message : String) :
      Reports [("status", .str "error"), ("code", .str code.name), ("message", .str message)]

theorem reports_of_executeTask {fields : List (String × Val)}
    (returned : rt.executeTask taskType payload = .ok fields) : Reports fields := by
  unfold executeTask at returned
  split at returned
  · cases returned
    exact .success _
  · cases returned
    exact .error _ _
  · cases returned

end Runtime

/-! ### The loop of the worker -/

/-- What the worker reads from a TASK message. -/
structure TaskMessage where
  requestId : String
  taskId : TaskId
  taskType : String
  taskPayload : List (Key × Val)
  attempt : Nat

/-- The TASK_RESULT with the fields of a result. -/
def TaskMessage.reply (m : TaskMessage) (fields : List (String × Val)) : Message :=
  buildMessage .taskResult m.requestId (("task_id", .str m.taskId) :: ("attempt", .int m.attempt) :: fields)

namespace Runtime

def shown (fields : List (String × Val)) : Val := .dict (fields.map (fun e => (.str e.1, e.2)))

/-- One round of `serve_tasks`: the TASK_RESULT sent, or none when an exception ends
the loop. The result is printed before it is sent. -/
def serveTask (rt : Runtime) (m : TaskMessage) : Option Message :=
  match rt.executeTask m.taskType m.taskPayload with
  | .error _ => none
  | .ok fields =>
    if ((Val.int m.attempt).reprFault rt.reprDepth).isSome || ((shown fields).reprFault rt.reprDepth).isSome then
      none
    else (encodeMessage rt.jsonDepth (m.reply fields)).toOption

/-- `serve_tasks` on the TASK messages it reads: the replies, and whether it still runs. -/
def serveTasks (rt : Runtime) : List TaskMessage → List Message × Bool
  | [] => ([], true)
  | m :: rest =>
    match rt.serveTask m with
    | none => ([], false)
    | some reply => (reply :: (rt.serveTasks rest).1, (rt.serveTasks rest).2)

/-- A field of a report can be printed, one container deep, and sent, two containers deep. -/
def sayable (rt : Runtime) (v : Val) : Bool :=
  (v.reprFault (rt.reprDepth - 1)).isNone && v.jsonError.isNone && v.nesting + 2 ≤ rt.jsonDepth

/-- The task is admitted, and its result can be said. An error report holds only texts. -/
def answerable (rt : Runtime) (m : TaskMessage) : Bool :=
  rt.admits m.taskType m.taskPayload && !tooManyDigits m.attempt &&
    match rt.runTask m.taskType m.taskPayload with
    | .ok result => rt.sayable result
    | .error _ => rt.sayable (.str "")

variable {rt : Runtime}

variable {v : Val}

theorem sayable_iff : rt.sayable v = true ↔
    v.reprFault (rt.reprDepth - 1) = none ∧ v.jsonError = none ∧ v.nesting + 2 ≤ rt.jsonDepth := by
  simp [sayable, and_assoc]

/-- Texts are said wherever anything is. -/
theorem sayable_str (said : rt.sayable v = true) (text : String) : rt.sayable (.str text) = true := by
  obtain ⟨printed, _, fits⟩ := sayable_iff.mp said
  refine sayable_iff.mpr ⟨?_, by simp [Val.jsonError], by simp only [Val.nesting]; omega⟩
  cases depth : rt.reprDepth - 1 with
  | zero => simp [depth, Val.reprFault] at printed
  | succ _ => simp [Val.reprFault]

variable {fields : List (String × Val)} {m : TaskMessage}

theorem entriesReprFault_shown {depth : Nat} :
    entriesReprFault depth (fields.map (fun e => (.str e.1, e.2))) = none ↔
      ∀ e ∈ fields, e.2.reprFault depth = none := by
  induction fields with
  | nil => simp [entriesReprFault]
  | cons e rest ih =>
    rw [List.forall_mem_cons, ← ih]
    cases depth with
    | zero => simp [entriesReprFault, Key.reprFault, Val.reprFault]
    | succ depth => simp [entriesReprFault, Key.reprFault]

theorem printed_iff (some : fields ≠ []) :
    (shown fields).reprFault rt.reprDepth = none ↔ ∀ e ∈ fields, e.2.reprFault (rt.reprDepth - 1) = none := by
  cases rt.reprDepth with
  | zero =>
    obtain ⟨e, rest, rfl⟩ := List.exists_cons_of_ne_nil some
    rw [List.forall_mem_cons]
    simp [shown, Val.reprFault]
  | succ depth =>
    rw [shown, Val.reprFault, entriesReprFault_shown]
    rfl

theorem sent_iff :
    encodeMessage rt.jsonDepth (m.reply fields) = .ok (m.reply fields) ↔
      2 ≤ rt.jsonDepth ∧ tooManyDigits m.attempt = false ∧
        ∀ e ∈ fields, e.2.jsonError = none ∧ e.2.nesting + 2 ≤ rt.jsonDepth := by
  rw [encodes_iff, TaskMessage.reply, buildMessage, List.forall_mem_cons, List.forall_mem_cons]
  simp only [Val.jsonError, Val.nesting, intJsonError_eq_none]
  constructor
  · rintro ⟨room, _, ⟨digits, _⟩, each⟩
    exact ⟨room, digits, each⟩
  · rintro ⟨room, digits, each⟩
    exact ⟨room, ⟨trivial, room⟩, ⟨digits, room⟩, each⟩

/-- The report of a task is printed and sent exactly if each of its fields can be said. -/
theorem serveTask_iff (given : fields ≠ []) (returned : rt.executeTask m.taskType m.taskPayload = .ok fields) :
    (rt.serveTask m).isSome = true ↔ tooManyDigits m.attempt = false ∧ ∀ e ∈ fields, rt.sayable e.2 = true := by
  have arrives : (encodeMessage rt.jsonDepth (m.reply fields)).toOption.isSome = true ↔
      encodeMessage rt.jsonDepth (m.reply fields) = .ok (m.reply fields) := by
    cases encoded : encodeMessage rt.jsonDepth (m.reply fields) with
    | error _ => simp [Except.toOption]
    | ok message => simp [Except.toOption, eq_of_encodeMessage encoded]
  have served : (rt.serveTask m).isSome = true ↔
      ((Val.int m.attempt).reprFault rt.reprDepth = none ∧ (shown fields).reprFault rt.reprDepth = none) ∧
        encodeMessage rt.jsonDepth (m.reply fields) = .ok (m.reply fields) := by
    rw [← arrives]
    simp only [serveTask, returned]
    cases (Val.int m.attempt).reprFault rt.reprDepth <;> cases (shown fields).reprFault rt.reprDepth <;> simp
  rw [served, sent_iff, printed_iff given]
  constructor
  · rintro ⟨⟨_, printed⟩, _, digits, each⟩
    exact ⟨digits, fun e member => sayable_iff.mpr ⟨printed e member, each e member⟩⟩
  · rintro ⟨digits, each⟩
    have said (e) (member : e ∈ fields) := sayable_iff.mp (each e member)
    obtain ⟨e, member⟩ := List.exists_mem_of_ne_nil _ given
    obtain ⟨printed, _, fits⟩ := said e member
    refine ⟨⟨?_, fun e member => (said e member).1⟩, by omega, digits, fun e member => (said e member).2⟩
    cases deep : rt.reprDepth with
    | zero => simp [deep, Val.reprFault] at printed
    | succ depth => simp [Val.reprFault, intReprFault, intJsonError_eq_none.mpr digits]

theorem served_iff_answerable (m : TaskMessage) : (rt.serveTask m).isSome = true ↔ rt.answerable m = true := by
  have admitted : Contained (rt.runTask m.taskType m.taskPayload) ↔ rt.admits m.taskType m.taskPayload = true :=
    contained_runTask_iff
  unfold answerable
  cases outcome : rt.runTask m.taskType m.taskPayload with
  | ok result =>
    rw [outcome] at admitted
    have returned : rt.executeTask m.taskType m.taskPayload =
        .ok [("status", .str "success"), ("result", result)] := by rw [executeTask, outcome]
    rw [serveTask_iff (by simp) returned, List.forall_mem_cons, List.forall_mem_singleton]
    simp only [admitted.mp (contained_ok _), Bool.true_and, Bool.and_eq_true, Bool.not_eq_true_eq_eq_false]
    exact and_congr_right fun _ => ⟨And.right, fun said => ⟨sayable_str said _, said⟩⟩
  | error raised =>
    rw [outcome] at admitted
    cases raised with
    | execution code message =>
      have returned : rt.executeTask m.taskType m.taskPayload =
          .ok [("status", .str "error"), ("code", .str code.name), ("message", .str message)] := by
        rw [executeTask, outcome]
      rw [serveTask_iff (by simp) returned, List.forall_mem_cons, List.forall_mem_cons, List.forall_mem_singleton]
      simp only [admitted.mp (contained_execution _ _), Bool.true_and, Bool.and_eq_true,
        Bool.not_eq_true_eq_eq_false]
      refine and_congr_right fun _ => ⟨fun said => sayable_str said.1 _, fun said => ?_⟩
      exact ⟨sayable_str said _, sayable_str said _, sayable_str said _⟩
    | other exn =>
      have escapes : rt.admits m.taskType m.taskPayload = false := by
        simpa using mt admitted.mpr (not_contained_other exn)
      simp [escapes, serveTask, executeTask, outcome]

theorem serveTask_requestId {reply : Message} (served : rt.serveTask m = some reply) :
    reply.requestId = m.requestId := by
  unfold serveTask at served
  split at served
  · cases served
  · rename_i fields _
    split at served
    · cases served
    · cases encoded : encodeMessage rt.jsonDepth (m.reply fields) with
      | error _ => simp [encoded, Except.toOption] at served
      | ok message =>
        rw [encoded] at served
        obtain rfl : message = reply := Option.some.inj served
        rw [eq_of_encodeMessage encoded]
        rfl

theorem serveTasks_answers (messages : List TaskMessage) :
    ((rt.serveTasks messages).2 = true ↔ ∀ m ∈ messages, rt.answerable m = true) ∧
      (rt.serveTasks messages).1.map Message.requestId =
        (messages.takeWhile rt.answerable).map TaskMessage.requestId := by
  induction messages with
  | nil => simp [serveTasks]
  | cons m rest ih =>
    have answers : (rt.serveTask m).isSome = true ↔ rt.answerable m = true := served_iff_answerable m
    cases served : rt.serveTask m with
    | none =>
      have unanswered : rt.answerable m = false := by simpa [served] using answers
      simp [serveTasks, served, unanswered]
    | some reply =>
      have answered : rt.answerable m = true := by simpa [served] using answers
      simp [serveTasks, served, answered, serveTask_requestId served, ih]

theorem serveTasks_unanswerable (unanswered : rt.answerable m = false) :
    rt.serveTasks [m] = ([], false) := by
  have answers : (rt.serveTask m).isSome = true ↔ rt.answerable m = true := served_iff_answerable m
  have silent : rt.serveTask m = none := by simpa [unanswered] using answers
  simp [serveTasks, silent]

end Runtime

end DistributedCompute
