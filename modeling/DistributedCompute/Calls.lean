import DistributedCompute.EngineJobs

/-! Function calls: `jobs/call.py`, from the submission of a call to the value that
`collect_call_result` gives its caller. The names of keyword arguments are strings and
differ; the arguments of a serialized call may be any dict. -/
namespace DistributedCompute
open Py Transition Raising
variable {floatRepr : BitVec 64 → String} {rt : Runtime}

/-- What `submit_task` returned or raised, as Python has it. -/
def submitOrRaise (s : Scheduler) (t : TaskId) (taskType : String) (payload : List (Key × Val)) :
    Except PyError Task × Scheduler :=
  let outcome := s.submitTask t taskType payload
  (outcome.1.mapError SchedulerError.toPyError, outcome.2)

/-- A dict of keyword arguments. -/
def keywords (kwargs : Dict String Val) : List (Key × Val) := kwargs.entries.map (fun e => (.str e.1, e.2))

def submitCall (s : Scheduler) (t : TaskId) (operation : String) (kwargs : Dict String Val) :
    Except PyError Task × Scheduler :=
  submitOrRaise s t operation (keywords kwargs)

def submitRegisteredCall (s : Scheduler) (t : TaskId) (operation : String) (kwargs : Dict String Val) :
    Except PyError Task × Scheduler :=
  submitOrRaise s t "EXECUTE" [(.str "execution_mode", .str "registered"), (.str "operation", .str operation),
    (.str "payload", .dict (keywords kwargs))]

def submitSerializedCall (rt : Runtime) (s : Scheduler) (t : TaskId) (fn : Callable) (args : Option (List Val))
    (kwargs : Option (List (Key × Val))) : Except PyError Task × Scheduler :=
  match rt.serialize fn with
  | .error text => (.error (.serializationError text), s)
  | .ok encoded => submitOrRaise s t "EXECUTE" [(.str "execution_mode", .str "serialized_callable"),
      (.str "callable", .str encoded), (.str "args", .list (args.getD [])), (.str "kwargs", .dict (kwargs.getD []))]

inductive CollectError
  | callError (code message : Val)
  | keyError (text : String)

def collectCallResult (response : Message) : Except CollectError Val :=
  if response.succeeded then
    match response.get? "result" with
    | some result => .ok result
    | none => .error (.keyError "'result'")
  else
    .error (.callError ((response.get? "code").getD (.str "UNKNOWN"))
      ((response.get? "message").getD (.str "unknown error")))

/-! ### The three forms of a call -/

inductive CallForm
  | call (operation : String) (kwargs : Dict String Val)
  | registeredCall (operation : String) (kwargs : Dict String Val)
  | serializedCall (fn : Callable) (args : Option (List Val)) (kwargs : Option (List (Key × Val)))

namespace CallForm

def submit (rt : Runtime) (s : Scheduler) (t : TaskId) : CallForm → Except PyError Task × Scheduler
  | .call operation kwargs => submitCall s t operation kwargs
  | .registeredCall operation kwargs => submitRegisteredCall s t operation kwargs
  | .serializedCall fn args kwargs => submitSerializedCall rt s t fn args kwargs

/-- The call is for a function: its name is none of the reserved task types, and a
callable that is sent arrives as it was. -/
def Plain (rt : Runtime) : CallForm → Prop
  | .call operation _ => operation ∉ ["ADD", "MULTIPLY", "MAP", "REDUCE", "EXECUTE"]
  | .registeredCall operation _ => operation ≠ ""
  | .serializedCall fn _ _ => (ExecutionSpec.serialized fn).Ships rt

/-- The function on the arguments as the worker reads them. -/
def outcome (floatRepr : BitVec 64 → String) (rt : Runtime) : CallForm → Except Raised Val
  | .call operation kwargs | .registeredCall operation kwargs =>
    rt.executeRegistered operation (.dict (kwargs.entries.map (fun e => (.str e.1, e.2.overWire floatRepr))))
  | .serializedCall fn args kwargs => do
      let result ← Runtime.userResult
        (fn ((args.getD []).map (Val.overWire floatRepr)) (wireEntries floatRepr (kwargs.getD [])))
      rt.checkResultIsJsonSafe result "serialized_callable"
      return result

end CallForm

theorem wireEntries_keywords (kwargs : Dict String Val) : wireEntries floatRepr (keywords kwargs) =
    kwargs.entries.map (fun e => (.str e.1, e.2.overWire floatRepr)) := by
  have strings : ∀ e ∈ keywords kwargs, e.1.isStr = true := by
    intro e member
    obtain ⟨_, _, rfl⟩ := List.mem_map.mp member
    rfl
  have names : (keywords kwargs).map (fun e => e.1.canon) = (kwargs.entries.map Prod.fst).map Key.str := by
    simp [keywords, Key.canon]
  rw [wireEntries_strings strings (names ▸ kwargs.nodup.map (fun _ _ same => Key.str.inj same))]
  simp [keywords]

theorem overWire_dict (entries : List (Key × Val)) :
    (Val.dict entries).overWire floatRepr = .dict (wireEntries floatRepr entries) :=
  loads_dict_document entries

/-! ### What is submitted -/

section Submission
variable {s s' : Scheduler} {t : TaskId} {task : Task} {form : CallForm}

theorem submitOrRaise_ok {taskType : String} {payload : List (Key × Val)}
    (accepted : submitOrRaise s t taskType payload = (.ok task, s')) :
    s.submitTask t taskType payload = (.ok task, s') := by
  obtain ⟨returned, rfl⟩ := Prod.mk.inj accepted
  cases outcome : (s.submitTask t taskType payload).1 with
  | ok task' =>
    rw [outcome] at returned
    cases returned
    exact Prod.ext outcome rfl
  | error e =>
    rw [outcome] at returned
    cases returned

/-- Each form submits one task. -/
theorem submitTask_of_submit (accepted : form.submit rt s t = (.ok task, s')) :
    ∃ taskType payload, s.submitTask t taskType payload = (.ok task, s') := by
  cases form with
  | call operation kwargs => exact ⟨_, _, submitOrRaise_ok accepted⟩
  | registeredCall operation kwargs => exact ⟨_, _, submitOrRaise_ok accepted⟩
  | serializedCall fn args kwargs =>
    simp only [CallForm.submit, submitSerializedCall] at accepted
    split at accepted
    · cases accepted
    · exact ⟨_, _, submitOrRaise_ok accepted⟩

/-- Whatever its form, a call makes the worker run its function on its arguments. -/
theorem runTask_of_submit (plain : form.Plain rt) (accepted : form.submit rt s t = (.ok task, s')) :
    rt.runTask task.taskType (wireEntries floatRepr task.payload) = form.outcome floatRepr rt := by
  cases form with
  | call operation kwargs =>
    obtain ⟨_, rfl, _⟩ := Scheduler.submitTask_ok (submitOrRaise_ok accepted)
    simp only [CallForm.Plain, List.mem_cons, List.not_mem_nil, or_false, not_or] at plain
    obtain ⟨add, multiply, map, reduce, execute⟩ := plain
    rw [CallForm.outcome, ← wireEntries_keywords]
    unfold Runtime.runTask
    split <;> first | contradiction | rfl
  | registeredCall operation kwargs =>
    obtain ⟨_, rfl, _⟩ := Scheduler.submitTask_ok (submitOrRaise_ok accepted)
    have named : operation ≠ "" := plain
    have wired : wireEntries floatRepr [(.str "execution_mode", .str "registered"),
        (.str "operation", .str operation), (.str "payload", .dict (keywords kwargs))] = _ :=
      wireEntries_strings (by simp [Key.isStr]) (by simp [Key.canon])
    simp only [List.map_cons, List.map_nil, Val.overWire_str, overWire_dict, wireEntries_keywords] at wired
    simp only [wired]
    simp [Runtime.runTask, Runtime.executeEnvelope, entry, named, CallForm.outcome]
  | serializedCall fn args kwargs =>
    obtain ⟨text, encoded, present, decoded⟩ := plain
    simp only [CallForm.submit, submitSerializedCall, encoded] at accepted
    obtain ⟨_, rfl, _⟩ := Scheduler.submitTask_ok (submitOrRaise_ok accepted)
    have wired : wireEntries floatRepr [(.str "execution_mode", .str "serialized_callable"),
        (.str "callable", .str text), (.str "args", .list (args.getD [])),
        (.str "kwargs", .dict (kwargs.getD []))] = _ :=
      wireEntries_strings (by simp [Key.isStr]) (by simp [Key.canon])
    simp only [List.map_cons, List.map_nil, Val.overWire_str, Val.overWire_list, overWire_dict] at wired
    simp only [wired]
    simp [Runtime.runTask, Runtime.executeEnvelope, Runtime.executeSerializedCallable, entry, CallForm.outcome,
      Runtime.deserializeCallableField, present, decoded, bind, Except.bind]

end Submission

/-! ### What the caller collects -/

theorem failed_of_terminal {status : TaskStatus} (ended : status.terminal = true) (other : status ≠ .completed) :
    status = .failed := by
  cases status with
  | failed => rfl
  | completed => exact absurd rfl other
  | pending | assigned | running => cases ended

namespace Engine
variable {e e₀ : Engine}

theorem submit_step (e : Engine) (t : TaskId) (taskType : String) (payload : List (Key × Val)) :
    e.step floatRepr rt (.cluster (.master (.submitTask t taskType payload))) =
      some (e.submitted (e.scheduler.submitTask t taskType payload).2) := by
  have taken : e.cluster.step floatRepr (.master (.submitTask t taskType payload)) =
      some { e.cluster with master := { e.cluster.master with
        scheduler := (e.scheduler.submitTask t taskType payload).2 } } :=
    congrArg some (Cluster.write_none e.cluster _)
  simp only [Engine.step, ClusterAction.connects, Bool.false_eq_true, if_false, turn, taken, Option.map_some, follow,
    List.drop_length, List.filterMap_nil, List.foldl_nil, submitted]

theorem later_of_run {ok : Engine → EngineAction → Prop} (served : Served floatRepr rt e₀)
    (run : Steps (Engine.step floatRepr rt) ok e₀ e) : Served floatRepr rt e ∧ e₀.Later e := by
  induction run with
  | refl => exact ⟨served, .refl e₀⟩
  | snoc _ _ taken ih =>
    obtain ⟨served', next⟩ := ih.1.step taken
    exact ⟨served', ih.2.trans next⟩

/-- Workers with one registered function. -/
def incrementing : Runtime :=
  { bareRuntime with
    functions := fun name =>
      if name = "increment" then
        some (fun _ kwargs =>
          match entry "x" kwargs with
          | some (.int n) => .ok (.int (n + 1))
          | _ => .error ⟨"TypeError", .ok "x"⟩)
      else none }

def incrementCall : CallForm := .registeredCall "increment" (Dict.ofList [("x", .int 41)])

/-- The call on a scheduler, and the run in which its caller waits for it. -/
def incrementRun : List EngineAction :=
  [.waitForTasks ["c"]] ++ serveNext 0 ++ [.caller (.gatherEnds 0), .caller (.resume 0)]

def gaveSuccess (caller : Caller) : Bool :=
  match caller.pc with
  | .returned [response] => caller.taskIds = ["c"] && response.succeeded
  | _ => false

def incremented (e₀ : Engine) : Bool :=
  match incrementCall.submit incrementing e₀.scheduler "c" with
  | (.ok _, s) => (replay (Engine.step (fun _ => "") incrementing) anyMove (e₀.submitted s) incrementRun).any
      (fun e => (e.registry.callers[0]?).any gaveSuccess)
  | _ => false

end Engine
end DistributedCompute
