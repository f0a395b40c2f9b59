import DistributedCompute.Values

/-! `worker/executor.py`: what a worker answers to a task, whose payload is decoded from
JSON. User functions, their serialization, float arithmetic and the texts of `repr`
and `str` lie outside the repository and are the fields of `Runtime`. An exception
other than `ExecutionError` leaves `execute_task`; running out of memory is left out. -/
namespace DistributedCompute
open Py

inductive ExecutionErrorCode
  | unknownOperation
  | deserializationFailed
  | invalidArguments
  | userFunctionError
  | resultSerializationFailed
  | unsupportedReturnValue
  deriving DecidableEq, Repr

def ExecutionErrorCode.name : ExecutionErrorCode → String
  | .unknownOperation => "UNKNOWN_OPERATION"
  | .deserializationFailed => "DESERIALIZATION_FAILED"
  | .invalidArguments => "INVALID_ARGUMENTS"
  | .userFunctionError => "USER_FUNCTION_ERROR"
  | .resultSerializationFailed => "RESULT_SERIALIZATION_FAILED"
  | .unsupportedReturnValue => "UNSUPPORTED_RETURN_VALUE"

inductive Raised
  | execution (code : ExecutionErrorCode) (message : String)
  | other (exn : Exn)
  deriving DecidableEq, Repr

def invalidArguments (message : String) : Raised := .execution .invalidArguments message

/-- An exception of a user function: the name of its type, and its text or what
`str` raises on it. -/
structure UserExn where
  typeName : String
  text : Except Exn String

/-- A pure function, called with positional and keyword arguments. -/
abbrev Callable := List Val → List (Key × Val) → Except UserExn Val

/-- How decoding a callable fails. `cloudpickle.loads` may raise an exception that is
no `Exception`, or one that has no text. -/
inductive DeserializeFault
  | serializationError (text : String)
  | other (exn : Exn)
  deriving DecidableEq, Repr

structure Runtime where
  /-- `worker.registry.get_function`. -/
  functions : String → Option Callable
  /-- `encode_for_wire(serialize_callable(fn))`, or the text of its `SerializationError`. -/
  serialize : Callable → Except String String
  /-- `deserialize_callable(decode_from_wire(text))`. -/
  deserialize : String → Except DeserializeFault Callable
  repr : Val → String
  str : Val → String
  /-- How deep `repr` and `json.dumps` may recurse. The stack of the caller differs by
  a few frames between the calls; that difference is left out. -/
  reprDepth : Nat
  jsonDepth : Nat
  /-- The operators on numbers of which at least one is a float. -/
  floatAdd : Val → Val → Val
  floatMul : Val → Val → Val
  floatNeg : BitVec 64 → Val
  floatSum : List Val → Val
  floatLess : Val → Val → Bool

/-- `isinstance(value, (int, float)) and not isinstance(value, bool)`. -/
def isNumber : Val → Bool
  | .int _ | .float _ => true
  | _ => false

namespace Runtime
variable (rt : Runtime)

/-- `f"{value}"`. -/
def format : Val → String
  | .str s => s
  | v => rt.str v

/-- `repr` and `str` of a value that is no string raise together. -/
def requireText (v : Val) : Except Raised Unit :=
  match v.reprFault rt.reprDepth with
  | none => .ok ()
  | some exn => .error (.other exn)

def overflowError : Raised := .other ⟨"OverflowError", "int too large to convert to float"⟩

def tooLarge : Val → Bool
  | .int n => overflowsFloat n
  | _ => false

/-- An integer next to a float is converted first. -/
def onFloats (operator : Val → Val → Val) (a b : Val) : Except Raised Val :=
  if tooLarge a || tooLarge b then .error overflowError else .ok (operator a b)

def add : Val → Val → Except Raised Val
  | .int a, .int b => .ok (.int (a + b))
  | a, b => onFloats rt.floatAdd a b

def mul : Val → Val → Except Raised Val
  | .int a, .int b => .ok (.int (a * b))
  | a, b => onFloats rt.floatMul a b

def neg : Val → Val
  | .float bits => rt.floatNeg bits
  | .int a => .int (-a)
  | v => v

def less : Val → Val → Bool
  | .int a, .int b => a < b
  | a, b => rt.floatLess a b

def intValues : List Val → Option (List Int)
  | [] => some []
  | .int n :: rest => (intValues rest).map (n :: ·)
  | _ => none

/-- `sum` converts an integer to a float that does not fit. Its running total is an
integer up to the first float. -/
def sumOverflows : (total : Option Int) → List Val → Bool
  | _, [] => false
  | some total, .int n :: rest => sumOverflows (some (total + n)) rest
  | some total, _ :: rest => overflowsFloat total || sumOverflows none rest
  | none, v :: rest => tooLarge v || sumOverflows none rest

def sum (values : List Val) : Except Raised Val :=
  match intValues values with
  | some ns => .ok (.int ns.sum)
  | none => if sumOverflows (some 0) values then .error overflowError else .ok (rt.floatSum values)

/-- `max`, and `min` with the arguments of the comparison exchanged: the first
of the extreme elements. -/
def extreme (less : Val → Val → Bool) : List Val → Except Raised Val
  | [] => .error (.other ⟨"ValueError", "iterable argument is empty"⟩)
  | first :: rest => .ok (rest.foldl (fun best v => if less best v then v else best) first)

/-- `_check_result_is_json_safe`. -/
def checkResultIsJsonSafe (result : Val) (operation : String) : Except Raised Unit :=
  match result.jsonFault false rt.jsonDepth with
  | none => .ok ()
  | some (.typeError text) => .error (.execution .resultSerializationFailed
      s!"Return value of {rt.repr (.str operation)} is not JSON-serializable: {text}")
  | some (.valueError text) => .error (.execution .unsupportedReturnValue
      s!"Return value of {rt.repr (.str operation)} is not valid JSON (NaN/Infinity are not allowed): {text}")
  | some .recursionError =>
    .error (.other ⟨"RecursionError", "maximum recursion depth exceeded while encoding a JSON object"⟩)

/-- An exception of a user function becomes an `ExecutionError` with its text. -/
def userResult : Except UserExn Val → Except Raised Val
  | .ok v => .ok v
  | .error exn =>
    match exn.text with
    | .ok text => .error (.execution .userFunctionError s!"{exn.typeName}: {text}")
    | .error raised => .error (.other raised)

/-- `_deserialize_callable_field`. -/
def deserializeCallableField (payload : List (Key × Val)) : Except Raised Callable :=
  match entry "callable" payload with
  | some (.str encoded) =>
    if encoded = "" then
      .error (invalidArguments "payload must contain a non-empty string field 'callable'")
    else
      match rt.deserialize encoded with
      | .ok fn => .ok fn
      | .error (.serializationError text) => .error (.execution .deserializationFailed text)
      | .error (.other exn) => .error (.other exn)
  | _ => .error (invalidArguments "payload must contain a non-empty string field 'callable'")

end Runtime

/-! ### Built-in operations -/

inductive MapOperation
  | square
  | double
  | increment
  | negate
  | wordCount
  deriving DecidableEq, Repr

/-- `MAP_OPERATIONS`, by name. -/
def mapOperation? : String → Option MapOperation
  | "SQUARE" => some .square
  | "DOUBLE" => some .double
  | "INCREMENT" => some .increment
  | "NEGATE" => some .negate
  | "WORD_COUNT" => some .wordCount
  | _ => none

inductive ReduceOperation
  | sum
  | count
  | max
  | min
  deriving DecidableEq, Repr

/-- `REDUCE_OPERATIONS`, by name. -/
def reduceOperation? : String → Option ReduceOperation
  | "SUM" => some .sum
  | "COUNT" => some .count
  | "MAX" => some .max
  | "MIN" => some .min
  | _ => none

namespace Runtime
variable (rt : Runtime)

/-- One element of the loop over a built-in operation, validation included. -/
def applyMapOperation : MapOperation → Val → Except Raised Val
  | .wordCount, .str word =>
    if word = "" then .error (invalidArguments "WORD_COUNT data must contain only non-empty strings")
    else .ok (.list [.str word, .int 1])
  | .wordCount, _ => .error (invalidArguments "WORD_COUNT data must contain only non-empty strings")
  | operation, value =>
    if isNumber value = false then .error (invalidArguments "MAP data must contain only numeric values")
    else
      match operation with
      | .square => rt.mul value value
      | .double => rt.mul value (.int 2)
      | .increment => rt.add value (.int 1)
      | _ => .ok (rt.neg value)

def applyReduceOperation (operation : ReduceOperation) (values : List Val) : Except Raised Val :=
  if values.all isNumber = false then
    .error (invalidArguments "REDUCE values must contain only numeric values")
  else
    match operation with
    | .sum => rt.sum values
    | .count => .ok (.int values.length)
    | .max => extreme rt.less values
    | .min => extreme (fun a b => rt.less b a) values

/-- What an operation name selects: a built-in, else a registered function. The
name is whatever the payload holds, and an unhashable one makes the lookup raise. -/
def resolve {β : Type} (builtIn : String → Option β) (kind : String) (operation : Option Val) :
    Except Raised (β ⊕ Callable × String) :=
  match (operation.getD .none).lookup with
  | .unhashable ty => .error (.other ⟨"TypeError", s!"unhashable type: '{ty}'"⟩)
  | .absent => do
      rt.requireText (operation.getD .none)
      .error (.execution .unknownOperation s!"Unsupported {kind} operation: {rt.format (operation.getD .none)}")
  | .named name =>
    match builtIn name with
    | some operation => .ok (.inl operation)
    | none =>
      match rt.functions name with
      | some fn => .ok (.inr (fn, name))
      | none => .error (.execution .unknownOperation s!"Unsupported {kind} operation: {name}")

def isSerialized (payload : List (Key × Val)) : Bool :=
  match entry "execution_mode" payload with
  | some (.str mode) => mode = "serialized_callable"
  | _ => false

/-- `_apply_to_each` and the check of its result. -/
def mapUser (fn : Callable) (data : List Val) (operation : String) : Except Raised Val := do
  let mapped ← data.mapM (fun value => userResult (fn [value] []))
  rt.checkResultIsJsonSafe (.list mapped) operation
  return .list mapped

/-- `_call_with_values` and the check of its result. -/
def reduceUser (fn : Callable) (values : List Val) (operation : String) : Except Raised Val := do
  let result ← userResult (fn [.list values] [])
  rt.checkResultIsJsonSafe result operation
  return result

def executeMap (payload : List (Key × Val)) : Except Raised Val :=
  match entry "data" payload with
  | some (.list data) =>
    if isSerialized payload then do
      let fn ← rt.deserializeCallableField payload
      rt.mapUser fn data "MAP(serialized_callable)"
    else do
      match ← rt.resolve mapOperation? "MAP" (entry "operation" payload) with
      | .inl operation => return .list (← data.mapM (rt.applyMapOperation operation))
      | .inr (fn, name) => rt.mapUser fn data name
  | _ => .error (invalidArguments "payload must contain a list field 'data'")

def executeReduce (payload : List (Key × Val)) : Except Raised Val :=
  match entry "values" payload with
  | some (.list (first :: rest)) =>
    if isSerialized payload then do
      let fn ← rt.deserializeCallableField payload
      rt.reduceUser fn (first :: rest) "REDUCE(serialized_callable)"
    else do
      match ← rt.resolve reduceOperation? "REDUCE" (entry "operation" payload) with
      | .inl operation => rt.applyReduceOperation operation (first :: rest)
      | .inr (fn, name) => rt.reduceUser fn (first :: rest) name
  | _ => .error (invalidArguments "payload must contain a non-empty list field 'values'")

/-! ### The other task types -/

/-- `_require_numbers`. -/
def requireNumbers (payload : List (Key × Val)) : Except Raised (Val × Val) :=
  match entry "a" payload, entry "b" payload with
  | some a, some b =>
    if isNumber a && isNumber b then .ok (a, b)
    else .error (invalidArguments "payload must contain numeric fields 'a' and 'b'")
  | _, _ => .error (invalidArguments "payload must contain numeric fields 'a' and 'b'")

def executeAdd (payload : List (Key × Val)) : Except Raised Val := do
  let (a, b) ← requireNumbers payload
  rt.add a b

def executeMultiply (payload : List (Key × Val)) : Except Raised Val := do
  let (a, b) ← requireNumbers payload
  rt.mul a b

def executeRegistered (operation : String) (payload : Val) : Except Raised Val :=
  match rt.functions operation with
  | none => .error (.execution .unknownOperation s!"Unsupported task type: {operation}")
  | some fn =>
    match payload with
    | .dict kwargs => do
        let result ← userResult (fn [] kwargs)
        rt.checkResultIsJsonSafe result operation
        return result
    | _ => .error (invalidArguments "payload must be an object of keyword arguments")

/-- `_execute_serialized_callable`. -/
def executeSerializedCallable (payload : List (Key × Val)) : Except Raised Val :=
  match (entry "args" payload).getD (.list []), (entry "kwargs" payload).getD (.dict []) with
  | .list args, .dict kwargs => do
      let fn ← rt.deserializeCallableField payload
      let result ← userResult (fn args kwargs)
      rt.checkResultIsJsonSafe result "serialized_callable"
      return result
  | .list _, _ => .error (invalidArguments "payload field 'kwargs' must be an object")
  | _, _ => .error (invalidArguments "payload field 'args' must be a list")

def executeEnvelope (payload : List (Key × Val)) : Except Raised Val :=
  match entry "execution_mode" payload with
  | some (.str "registered") =>
    match entry "operation" payload with
    | some (.str operation) =>
      if operation = "" then
        .error (invalidArguments "payload must contain a non-empty string field 'operation'")
      else rt.executeRegistered operation ((entry "payload" payload).getD (.dict []))
    | _ => .error (invalidArguments "payload must contain a non-empty string field 'operation'")
  | some (.str "serialized_callable") => rt.executeSerializedCallable payload
  | mode => do
      rt.requireText (mode.getD .none)
      .error (.execution .unknownOperation s!"Unsupported execution_mode: {rt.repr (mode.getD .none)}")

/-- `HANDLERS`, and the registry for every other task type. -/
def runTask (taskType : String) (payload : List (Key × Val)) : Except Raised Val :=
  match taskType with
  | "ADD" => rt.executeAdd payload
  | "MULTIPLY" => rt.executeMultiply payload
  | "MAP" => rt.executeMap payload
  | "REDUCE" => rt.executeReduce payload
  | "EXECUTE" => rt.executeEnvelope payload
  | _ => rt.executeRegistered taskType (.dict payload)

/-- The fields of the result payload, or the exception that leaves the call. -/
def executeTask (taskType : String) (payload : List (Key × Val)) : Except Exn (List (String × Val)) :=
  match rt.runTask taskType payload with
  | .ok result => .ok [("status", .str "success"), ("result", result)]
  | .error (.execution code message) =>
    .ok [("status", .str "error"), ("code", .str code.name), ("message", .str message)]
  | .error (.other exn) => .error exn

/-! ### What selects the code that runs -/

/-- The operation is selected by name, and the name is a known one. -/
def selectsByName (known : String → Bool) (payload : List (Key × Val)) : Bool :=
  !isSerialized payload && match entry "operation" payload with
    | some (.str name) => known name
    | _ => false

/-- ADD and MULTIPLY, and MAP and REDUCE with a built-in operation. -/
def selectsBuiltIn (taskType : String) (payload : List (Key × Val)) : Bool :=
  match taskType with
  | "ADD" | "MULTIPLY" => true
  | "MAP" => selectsByName (fun name => (mapOperation? name).isSome) payload
  | "REDUCE" => selectsByName (fun name => (reduceOperation? name).isSome) payload
  | _ => false

/-- The payload carries the code to run. -/
def selectsCarried (taskType : String) (payload : List (Key × Val)) : Bool :=
  (taskType = "MAP" || taskType = "REDUCE" || taskType = "EXECUTE") && isSerialized payload

variable {rt} {payload : List (Key × Val)}

theorem resolve_of_builtIn {β : Type} {builtIn : String → Option β} {kind name : String} {operation : β}
    (named : builtIn name = some operation) :
    rt.resolve builtIn kind (some (.str name)) = .ok (.inl operation) := by
  simp [resolve, Val.lookup, named]

theorem executeMap_builtIn {name : String} {operation : MapOperation} (plain : isSerialized payload = false)
    (given : entry "operation" payload = some (.str name)) (named : mapOperation? name = some operation) :
    rt.executeMap payload =
      match entry "data" payload with
      | some (.list data) => do return .list (← data.mapM (rt.applyMapOperation operation))
      | _ => .error (invalidArguments "payload must contain a list field 'data'") := by
  unfold executeMap
  rw [plain, given, resolve_of_builtIn named]
  rfl

theorem executeReduce_builtIn {name : String} {operation : ReduceOperation} (plain : isSerialized payload = false)
    (given : entry "operation" payload = some (.str name)) (named : reduceOperation? name = some operation) :
    rt.executeReduce payload =
      match entry "values" payload with
      | some (.list (first :: rest)) => rt.applyReduceOperation operation (first :: rest)
      | _ => .error (invalidArguments "payload must contain a non-empty list field 'values'") := by
  unfold executeReduce
  rw [plain, given, resolve_of_builtIn named]
  rfl

theorem executeMap_registry {name : String} {operation : MapOperation} (plain : isSerialized payload = false)
    (given : entry "operation" payload = some (.str name)) (named : mapOperation? name = some operation)
    (f g : String → Option Callable) :
    ({ rt with functions := f } : Runtime).executeMap payload =
      ({ rt with functions := g } : Runtime).executeMap payload := by
  rw [executeMap_builtIn plain given named, executeMap_builtIn plain given named]
  rfl

theorem executeReduce_registry {name : String} {operation : ReduceOperation} (plain : isSerialized payload = false)
    (given : entry "operation" payload = some (.str name)) (named : reduceOperation? name = some operation)
    (f g : String → Option Callable) :
    ({ rt with functions := f } : Runtime).executeReduce payload =
      ({ rt with functions := g } : Runtime).executeReduce payload := by
  rw [executeReduce_builtIn plain given named, executeReduce_builtIn plain given named]
  rfl

theorem selectsByName_some {β : Type} {builtIn : String → Option β}
    (selects : selectsByName (fun name => (builtIn name).isSome) payload = true) :
    isSerialized payload = false ∧ ∃ name operation, entry "operation" payload = some (.str name) ∧
      builtIn name = some operation := by
  simp only [selectsByName, Bool.and_eq_true, Bool.not_eq_true_eq_eq_false] at selects
  obtain ⟨plain, known⟩ := selects
  split at known
  · rename_i name given
    obtain ⟨operation, named⟩ := Option.isSome_iff_exists.mp known
    exact ⟨plain, name, operation, given, named⟩
  · cases known

theorem runTask_registry {taskType : String} (selects : selectsBuiltIn taskType payload = true)
    (f g : String → Option Callable) :
    ({ rt with functions := f } : Runtime).runTask taskType payload =
      ({ rt with functions := g } : Runtime).runTask taskType payload := by
  unfold selectsBuiltIn at selects
  split at selects
  · rfl
  · rfl
  · obtain ⟨plain, name, operation, given, named⟩ := selectsByName_some selects
    exact executeMap_registry plain given named f g
  · obtain ⟨plain, name, operation, given, named⟩ := selectsByName_some selects
    exact executeReduce_registry plain given named f g
  · cases selects

theorem runTask_deserializer {taskType : String} (plain : selectsCarried taskType payload = false)
    (d e : String → Except DeserializeFault Callable) :
    ({ rt with deserialize := d } : Runtime).runTask taskType payload =
      ({ rt with deserialize := e } : Runtime).runTask taskType payload := by
  by_cases carried : isSerialized payload = true
  · have other : taskType ≠ "MAP" ∧ taskType ≠ "REDUCE" ∧ taskType ≠ "EXECUTE" := by
      simpa [selectsCarried, carried, and_assoc] using plain
    unfold runTask
    split
    · rfl
    · rfl
    · exact absurd rfl other.1
    · exact absurd rfl other.2.1
    · exact absurd rfl other.2.2
    · rfl
  · have serialized : isSerialized payload = false := by simpa using carried
    unfold runTask
    split
    · rfl
    · rfl
    · simp only [executeMap, serialized]
      rfl
    · simp only [executeReduce, serialized]
      rfl
    · unfold executeEnvelope
      split
      · rfl
      · rename_i mode
        simp [isSerialized, mode] at serialized
      · rfl
    · rfl

/-- No registration redefines a built-in operation, and the deserializer has no
influence unless the task carries code and says so. -/
theorem executor_confined (rt : Runtime) (taskType : String) (payload : List (Key × Val)) :
    (selectsBuiltIn taskType payload = true → ∀ f g : String → Option Callable,
      ({ rt with functions := f } : Runtime).executeTask taskType payload =
        ({ rt with functions := g } : Runtime).executeTask taskType payload) ∧
    (selectsCarried taskType payload = false → ∀ d e : String → Except DeserializeFault Callable,
      ({ rt with deserialize := d } : Runtime).executeTask taskType payload =
        ({ rt with deserialize := e } : Runtime).executeTask taskType payload) := by
  constructor
  · intro selects f g
    unfold executeTask
    rw [runTask_registry selects f g]
  · intro plain d e
    unfold executeTask
    rw [runTask_deserializer plain d e]

end Runtime

/-- A runtime without user functions, on data without floats. -/
def bareRuntime : Runtime where
  functions := fun _ => none
  serialize := fun _ => .error "no callable"
  deserialize := fun _ => .error (.serializationError "no callable")
  repr := fun _ => "?"
  str := fun _ => "?"
  reprDepth := 900
  jsonDepth := 900
  floatAdd := fun a _ => a
  floatMul := fun a _ => a
  floatNeg := .float
  floatSum := fun _ => .int 0
  floatLess := fun _ _ => false

/-- Registering a function under the name SQUARE changes nothing, and neither does
replacing the deserializer. -/
theorem squareTask_confined :
    (∀ f g : String → Option Callable,
      ({ bareRuntime with functions := f } : Runtime).executeTask "MAP"
          [(.str "operation", .str "SQUARE"), (.str "data", .list [.int 3])] =
        ({ bareRuntime with functions := g } : Runtime).executeTask "MAP"
          [(.str "operation", .str "SQUARE"), (.str "data", .list [.int 3])]) ∧
    ∀ d e : String → Except DeserializeFault Callable,
      ({ bareRuntime with deserialize := d } : Runtime).executeTask "MAP"
          [(.str "operation", .str "SQUARE"), (.str "data", .list [.int 3])] =
        ({ bareRuntime with deserialize := e } : Runtime).executeTask "MAP"
          [(.str "operation", .str "SQUARE"), (.str "data", .list [.int 3])] := by
  obtain ⟨registry, deserializer⟩ := Runtime.executor_confined bareRuntime "MAP"
    [(.str "operation", .str "SQUARE"), (.str "data", .list [.int 3])]
  exact ⟨registry (by decide), deserializer (by decide)⟩

end DistributedCompute
