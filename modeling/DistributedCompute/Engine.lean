import DistributedCompute.ClusterAnswers
import DistributedCompute.Lifecycle
import DistributedCompute.MapReduce

/-! The engine in use: the cluster, the calls of `wait_for_tasks`, and jobs that run
`run_map_reduce` of `jobs/map_reduce.py` as coroutines on the event loop of the master.
The dispatch function of a job is `wait_for_tasks` or `drain_tasks_for`. A step is the
code that runs between two awaits; cluster, calls and jobs take turns in any order.

All workers run the code of the client: one runtime serializes callables, formats keys
and executes tasks. Python iterates over a set of task ids in an order of its own, which
is part of the action. `clear_dispatch_registry` is not a step. -/
namespace DistributedCompute
open Py Transition

/-- The dispatch function a job is given. -/
inductive DispatchChoice
  | waitForTasks
  | drainTasksFor (timeout : Time)
  deriving DecidableEq

/-- The call that a job awaits. -/
inductive Ticket
  | caller (c : CallerId)
  | drain (i : DrainId)

inductive JobError
  | python (error : PyError)
  | waiting (error : WaitError)
  | drainRaised

/-- Where `run_map_reduce` is suspended, or how it ended. -/
inductive JobPhase
  | mapping (tasks : List (TaskId × Task)) (ticket : Ticket)
  | reducing (tasks : List (Key × TaskId)) (ticket : Ticket)
  | returned (result : ObjectDict Val)
  | raised (error : JobError)

structure JobSpec where
  jobId : String
  data : List Val
  mapOperation : ExecutionSpec
  reduceOperation : ExecutionSpec
  numPartitions : Int
  dispatch : DispatchChoice

/-- A call of `run_map_reduce`, with its local `map_responses`. -/
structure Job where
  spec : JobSpec
  mapResponses : List Message
  phase : JobPhase

structure Engine where
  cluster : Cluster
  registry : Registry
  jobs : List Job

inductive EngineAction
  | connect (workerId : WorkerId) (host : String) (port : Int)
  | cluster (a : ClusterAction)
  | waitForTasks (taskIds : List TaskId)
  | caller (a : WaitAction)
  | startJob (spec : JobSpec) (order : List TaskId) (now : Time)
  | resumeJob (j : Nat) (order : List TaskId) (now : Time)

def ClusterAction.connects : ClusterAction → Bool
  | .connect _ _ _ _ => true
  | _ => false

namespace Engine

def initial : Engine := ⟨.initial, .initial, []⟩

abbrev scheduler (e : Engine) : Scheduler := e.cluster.master.scheduler

abbrev tasks (e : Engine) : Dict TaskId Task := e.cluster.master.tasks

/-- The cluster has moved on, and what the master recorded reaches the calls. -/
def follow (e : Engine) (c : Cluster) : Engine :=
  { e with
    cluster := c
    registry := ((c.master.history.drop e.cluster.master.history.length).filterMap Event.record?).foldl
      (fun r record => r.recordTaskResponse record.1 record.2) e.registry }

/-- Tasks were submitted. -/
def submitted (e : Engine) (s : Scheduler) : Engine :=
  { e with cluster := { e.cluster with master := { e.cluster.master with scheduler := s } } }

def addJob (e : Engine) (job : Job) : Engine := { e with jobs := e.jobs ++ [job] }

def setJob (e : Engine) (j : Nat) (job : Job) : Engine := { e with jobs := e.jobs.set j job }

/-- What the awaited call returned or raised; `none` while it is suspended. A drain that
ran into its deadline returns what it has. -/
def outcome? (e : Engine) : Ticket → Option (Except JobError (List Message))
  | .caller c =>
    match (e.registry.callers[c]?).map Caller.pc with
    | some (.returned responses) => some (.ok responses)
    | some (.raised error) => some (.error (.waiting error))
    | _ => none
  | .drain i =>
    match e.cluster.master.drains[i]? with
    | some drain =>
      match drain.pc with
      | .returned | .timedOut => some (.ok drain.responses)
      | .raised => some (.error .drainRaised)
      | _ => none
    | none => none

section Step
variable (floatRepr : BitVec 64 → String) (rt : Runtime)

def turn (e : Engine) (a : ClusterAction) : Option Engine := (e.cluster.step floatRepr a).map e.follow

/-- `wait_for_tasks(task_ids)` up to its await: `ensure_dispatcher_running` comes first. -/
def waitForTasks (e : Engine) (taskIds : List TaskId) : Option Engine :=
  (e.turn floatRepr (.master .startDispatcher)).map
    (fun e' => { e' with registry := e'.registry.waitForTasks taskIds })

/-- `dispatch(task_ids)` up to its first await. -/
def dispatch (e : Engine) (choice : DispatchChoice) (taskIds : List TaskId) (now : Time) :
    Option (Ticket × Engine) :=
  match choice with
  | .waitForTasks => (e.waitForTasks floatRepr taskIds).map (fun e' => (.caller e.registry.callers.length, e'))
  | .drainTasksFor timeout =>
    (e.turn floatRepr (.master (.callDrain (some taskIds) timeout now))).map
      (fun e' => (.drain e.cluster.master.drains.length, e'))

/-- `run_map_reduce` up to its first await. -/
def startJob (e : Engine) (spec : JobSpec) (order : List TaskId) (now : Time) : Option Engine :=
  match buildMapJob rt e.scheduler spec.jobId spec.mapOperation spec.data spec.numPartitions with
  | (.error error, s) => some ((e.submitted s).addJob ⟨spec, [], .raised (.python error)⟩)
  | (.ok tasks, s) =>
    if order.isPerm (tasks.map Prod.fst) then
      ((e.submitted s).dispatch floatRepr spec.dispatch order now).map
        (fun next => next.2.addJob ⟨spec, [], .mapping tasks next.1⟩)
    else none

/-- From the map responses to the second await. -/
def startReduce (e : Engine) (j : Nat) (job : Job) (tasks : List (TaskId × Task)) (responses : List Message)
    (order : List TaskId) (now : Time) : Option Engine :=
  let job := { job with mapResponses := responses }
  -- the task objects are read again, as the dispatch left them
  let current := tasks.map (fun task => (task.1, (e.tasks.get? task.1).getD task.2))
  match (buildIntermediateResults job.spec.jobId current responses).bind shuffle with
  | .error error => some (e.setJob j { job with phase := .raised (.python error) })
  | .ok grouped =>
    match buildReduceJob rt e.scheduler job.spec.jobId grouped job.spec.reduceOperation with
    | (.error error, s) => some ((e.submitted s).setJob j { job with phase := .raised (.python error) })
    | (.ok reduceTasks, s) =>
      if order.isPerm (reduceTasks.map Prod.snd) then
        ((e.submitted s).dispatch floatRepr job.spec.dispatch order now).map
          (fun next => next.2.setJob j { job with phase := .reducing reduceTasks next.1 })
      else none

def finishJob (job : Job) (tasks : List (Key × TaskId)) (responses : List Message) : Job :=
  match collectReduceResults rt tasks responses with
  | .ok result => { job with phase := .returned result }
  | .error error => { job with phase := .raised (.python error) }

def resumeJob (e : Engine) (j : Nat) (job : Job) (order : List TaskId) (now : Time) : Option Engine :=
  match job.phase with
  | .mapping tasks ticket =>
    match e.outcome? ticket with
    | some (.ok responses) => e.startReduce floatRepr rt j job tasks responses order now
    | some (.error error) => some (e.setJob j { job with phase := .raised error })
    | none => none
  | .reducing tasks ticket =>
    match e.outcome? ticket with
    | some (.ok responses) => some (e.setJob j (finishJob rt job tasks responses))
    | some (.error error) => some (e.setJob j { job with phase := .raised error })
    | none => none
  | _ => none

def step (e : Engine) : EngineAction → Option Engine
  | .connect workerId host port => e.turn floatRepr (.connect rt workerId host port)
  | .cluster a => if a.connects then none else e.turn floatRepr a
  | .waitForTasks taskIds => e.waitForTasks floatRepr taskIds
  | .caller a =>
    if a.caller?.isSome then (e.registry.step a).map (fun registry => { e with registry }) else none
  | .startJob spec order now => e.startJob floatRepr rt spec order now
  | .resumeJob j order now => (e.jobs[j]?).bind (fun job => e.resumeJob floatRepr rt j job order now)

end Step

/-- No condition on the steps: every run. -/
def anyMove (_ : Engine) (_ : EngineAction) : Prop := True

instance (e : Engine) (a : EngineAction) : Decidable (anyMove e a) := inferInstanceAs (Decidable True)

end Engine
end DistributedCompute
