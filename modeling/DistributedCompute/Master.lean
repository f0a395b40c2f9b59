import DistributedCompute.Scheduler
import DistributedCompute.RpcHandler

/-! The async master of `master/async_server.py` as a transition system. One
step is the code a coroutine runs between two awaits; every await is a program
counter at which any other coroutine may run. Records of suspended coroutines
keep exactly the locals the code reads after resuming.

`lost` on a link covers both ends: the peer went away, or the master closed
the transport. `history` is a history variable, read by no step. -/
namespace DistributedCompute
open Py

def heartbeatTimeout : Time := 5000

abbrev LinkId := Nat
abbrev DispatchId := Nat
abbrev DrainId := Nat

def attemptRequestId (t : TaskId) (attempt : Nat) : String := s!"task-{t}:{attempt}"

/-- The future a `send_task` call waits on. -/
inductive Reply
  | waiting
  | message (m : Message)
  | failed (reason : String)
  deriving Repr

/-- Where `handle_worker_connection` is suspended. -/
inductive HandlerPc
  | reading
  | rejecting
  | replying (message response : Message)
  | replacing
  | closing
  | finished
  deriving Repr

/-- A `WorkerLink` with its connection and the `worker_id` local of its handler.
`pending` maps a request_id to the dispatch whose future it is. -/
structure Link where
  lost : Bool
  pending : Dict String DispatchId
  generation : Option Nat
  workerId : Option WorkerId
  pc : HandlerPc

def Link.fresh : Link := ⟨false, ∅, none, none, .reading⟩

def Link.hasPending (link : Link) : Bool := !link.pending.entries.isEmpty

/-- Where `dispatch_assigned_task` is suspended, or how it ended. `drained` says
whether `send_message` has returned, so that only the future is awaited. -/
inductive DispatchPc
  | spawned
  | sending (link : LinkId) (workerId : WorkerId) (attempt : Nat) (drained : Bool) (reply : Reply)
  | closing (workerId : WorkerId) (attempt : Nat) (response : Message)
  | returned (response : Message)
  | raised
  deriving Repr

structure Dispatch where
  taskId : TaskId
  pc : DispatchPc
  deriving Repr

inductive DrainPc
  | gathering (batch : List DispatchId)
  | sleeping
  | returned
  | timedOut
  | raised
  deriving DecidableEq, Repr

structure Drain where
  scope : Option (List TaskId)
  timeout : Time
  deadline : Option Time
  responses : List Message
  pc : DrainPc
  deriving Repr

inductive MonitorPc
  | waiting
  | sweeping (drain : DrainId)
  | raised
  deriving DecidableEq, Repr

inductive Event
  | registered (w : WorkerId) (generation : Nat) (l : LinkId)
  | sent (t : TaskId) (attempt : Nat) (l : LinkId)
  | recorded (t : TaskId) (response : Message)
  deriving Repr

structure Master where
  scheduler : Scheduler
  connections : Dict WorkerId LinkId
  responses : Dict TaskId Message
  links : List Link
  dispatches : List Dispatch
  drains : List Drain
  monitors : List MonitorPc
  dispatcher : Bool
  history : List Event

def Master.initial : Master := ⟨⟨∅, ∅⟩, ∅, ∅, [], [], [], [], false, []⟩

namespace Master

abbrev workers (m : Master) : WorkerManager := m.scheduler.workers

abbrev tasks (m : Master) : Dict TaskId Task := m.scheduler.tasks

def modifyLink (m : Master) (l : LinkId) (f : Link → Link) : Master :=
  { m with links := m.links.modify l f }

def setHandler (m : Master) (l : LinkId) (pc : HandlerPc) : Master :=
  m.modifyLink l (fun link => { link with pc })

/-- `writer.close()`, or the peer's end of the connection going away. -/
def loseLink (m : Master) (l : LinkId) : Master :=
  m.modifyLink l (fun link => { link with lost := true })

def setDispatch (m : Master) (d : DispatchId) (pc : DispatchPc) : Master :=
  { m with dispatches := m.dispatches.modify d (fun dispatch => { dispatch with pc }) }

end Master

/-- `future.set_exception` on a future that is not done. -/
def Dispatch.failReply (reason : String) (dispatch : Dispatch) : Dispatch :=
  match dispatch.pc with
  | .sending l w a drained .waiting => { dispatch with pc := .sending l w a drained (.failed reason) }
  | _ => dispatch

namespace Master

/-! ### Connection handlers -/

/-- `WorkerLink.fail_pending`. -/
def failPending (m : Master) (link : Link) (reason : String) : Master :=
  { m with dispatches := m.dispatches.mapIdx (fun d dispatch =>
      if d ∈ link.pending.values then dispatch.failReply reason else dispatch) }

/-- The part of the `finally` block that runs only on the current link of `w`. -/
def retire (m : Master) (link : Link) (w : WorkerId) : Master :=
  { m with
    connections := m.connections.erase w
    scheduler := if m.workers.statusOf w = some .draining ∧ link.hasPending = false then
        m.scheduler.setWorkerStatus w .stopped
      else m.scheduler }

/-- `worker_id is not None and connections.get(worker_id) is link`. -/
def isCurrentLink (m : Master) (l : LinkId) (link : Link) : Bool :=
  match link.workerId with
  | some w => m.connections.get? w = some l
  | none => false

/-- The `finally` block of `handle_worker_connection`, up to `await conn.close()`. -/
def cleanup (m : Master) (l : LinkId) (link : Link) : Master :=
  let left := match link.workerId with
    | some w => if m.connections.get? w = some l then m.retire link w else m
    | none => m
  (left.failPending link "Worker connection closed").modifyLink l
    (fun link => { link with lost := true, pc := .closing })

/-- `WorkerLink.resolve`, where it returns True. -/
def resolve (m : Master) (link : Link) (message : Message) : Option Master :=
  match link.pending.get? message.requestId with
  | none => none
  | some d =>
    match m.dispatches[d]? with
    | some ⟨_, .sending l w a drained .waiting⟩ =>
      some (m.setDispatch d (.sending l w a drained (.message message)))
    | _ => none

/-- Note which link the registration of a new generation arrived on. -/
def registrationEvents (m : Master) (l : LinkId) (message : Message) (now : Time) : List Event :=
  match grantedRegistration m.workers message now with
  | none => []
  | some (w, ws) =>
    match ws.get? w with
    | some worker => [.registered w worker.generation l]
    | none => []

end Master

/-- How a turn of the read loop goes: on to a later `await`, or out of the loop
(a return or an exception) and through the `finally` block. -/
inductive Turn
  | goes (m : Master)
  | ends

namespace Master

/-- One message read on a link, up to the `await` that sends the reply. -/
def handleMessage (m : Master) (l : LinkId) (link : Link) (message : Message) (now : Time) : Turn :=
  if link.workerId.isSome ∧ m.isCurrentLink l link = false then .ends
  else
    match m.resolve link message with
    | some m' => .goes m'
    | none =>
      match handleRequest m.workers message now with
      | .error _ => .ends
      | .ok (response, ws) =>
        .goes ({ m with
          scheduler := { m.scheduler with workers := ws }
          history := m.history ++ m.registrationEvents l message now }.setHandler l
          (.replying message response))

/-- `connections[worker_id] = link`, closing a link it takes the place of. -/
def install (m : Master) (l : LinkId) (w : WorkerId) : Master :=
  let installed := { m with connections := m.connections.insert w l }.modifyLink l
    (fun link => { link with workerId := some w, generation := (m.workers.get? w).map Worker.generation })
  match m.connections.get? w with
  | some previous =>
    if previous = l then installed.setHandler l .reading
    else (installed.loseLink previous).setHandler l .replacing
  | none => installed.setHandler l .reading

/-- After `await send_message(conn, response)`. -/
def afterReply (m : Master) (l : LinkId) (link : Link) (message response : Message) : Turn :=
  if message.type = .register ∧ response.type = .registerAck then
    match argument message "worker_id" with
    | .str w => .goes (m.install l w)
    | _ => .ends
  else if message.type = .shutdown ∧ response.type = .shutdownAck ∧
      link.workerId.isSome ∧ link.hasPending = false then
    .ends
  else .goes (m.setHandler l .reading)

/-! ### Dispatches -/

def isCurrentAttempt (m : Master) (t : TaskId) (w : WorkerId) (attempt : Nat) : Bool :=
  match m.tasks.get? t with
  | some task => task.assignedWorkerId = some w && task.attempt = attempt
  | none => false

/-- `_record_task_response`, without the future of a `wait_for_tasks` caller. -/
def recordTaskResponse (m : Master) (t : TaskId) (response : Message) : Master :=
  { m with
    responses := m.responses.insert t response
    history := m.history ++ [Event.recorded t response] }

/-- `record_if_terminal(response, True)`. -/
def recordIfTerminal (m : Master) (t : TaskId) (response : Message) : Master :=
  match m.tasks.get? t with
  | some task => if task.status.terminal then m.recordTaskResponse t response else m
  | none => m

def workerUnreachable (t : TaskId) (attempt : Nat) (reason : String) : Message :=
  buildMessage .error (attemptRequestId t attempt)
    [("task_id", .str t), ("attempt", .int attempt), ("code", .str "WORKER_UNREACHABLE"),
      ("message", .str reason)]

/-- The branch of an unreachable worker, from `was_current` to the return. -/
def unreachable (m : Master) (d : DispatchId) (t : TaskId) (w : WorkerId) (attempt : Nat)
    (reason : String) : Master :=
  let response := workerUnreachable t attempt reason
  if m.isCurrentAttempt t w attempt then
    match m.scheduler.condemn w with
    | (.error _, s) => { m with scheduler := s }.setDispatch d .raised
    | (.ok (), s) =>
      ({ m with scheduler := s }.recordIfTerminal t response).setDispatch d (.returned response)
  else m.setDispatch d (.returned response)

/-- The request `send_task` builds. -/
def taskRequest (t : TaskId) (task : Task) : Message :=
  buildMessage .task (attemptRequestId t task.attempt)
    [("task_id", .str t), ("task_type", .str task.taskType), ("task_payload", .dict task.payload),
      ("attempt", .int task.attempt)]

/-- `_pending.pop(request_id, None)` on the link of a send that is over. -/
def popPending (m : Master) (l : LinkId) (t : TaskId) (attempt : Nat) : Master :=
  m.modifyLink l (fun link => { link with pending := link.pending.erase (attemptRequestId t attempt) })

/-- The future is registered under its request_id and the TASK is written. -/
def writeTask (m : Master) (d : DispatchId) (t : TaskId) (task : Task) (w : WorkerId) (l : LinkId) : Master :=
  ({ m with history := m.history ++ [Event.sent t task.attempt l] }.modifyLink l (fun link =>
    { link with pending := link.pending.insert (attemptRequestId t task.attempt) d })).setDispatch d
    (.sending l w task.attempt false .waiting)

/-- `send_task` up to the first `await`, where `json.dumps` may recurse `depth` times. A
request that cannot be encoded raises before anything is written, and its future is popped
again on the way out; RecursionError ends the call. -/
def sendTask (m : Master) (d : DispatchId) (t : TaskId) (task : Task) (w : WorkerId) (l : LinkId) (depth : Nat) :
    Master :=
  match encodeMessage depth (taskRequest t task) with
  | .error (.protocolError reason) => (m.popPending l t task.attempt).unreachable d t w task.attempt reason
  | .error .recursionError => (m.popPending l t task.attempt).setDispatch d .raised
  | .ok _ => m.writeTask d t task w l

/-- `dispatch_assigned_task` from its first line to its first `await`. -/
def beginDispatch (m : Master) (d : DispatchId) (t : TaskId) (depth : Nat) : Master :=
  match m.tasks.get? t, m.scheduler.startTask t with
  | some task, (.ok (), s) =>
    match task.assignedWorkerId with
    | none => { m with scheduler := s }.setDispatch d .raised
    | some w =>
      match m.connections.get? w with
      | none => { m with scheduler := s }.unreachable d t w task.attempt "no connection"
      | some l => { m with scheduler := s }.sendTask d t task w l depth
  | _, _ => m.setDispatch d .raised

/-- `record_if_terminal` and the return, after the last `await`. -/
def finishDispatch (m : Master) (d : DispatchId) (t : TaskId) (response : Message) : Master :=
  (m.recordIfTerminal t response).setDispatch d (.returned response)

/-- The rest of the call after the task was settled: `_close_connection_if_draining`
suspends only when there is a connection of a DRAINING worker to close. -/
def closeIfDraining (m : Master) (d : DispatchId) (t : TaskId) (w : WorkerId) (attempt : Nat)
    (response : Message) : Master :=
  if m.workers.statusOf w = some .draining then
    match m.connections.get? w with
    | some l => (m.loseLink l).setDispatch d (.closing w attempt response)
    | none => m.finishDispatch d t response
  else m.finishDispatch d t response

/-- Continue after `complete_task` or `fail_task`, or stop if it raised. -/
def settled (m : Master) (d : DispatchId) (t : TaskId) (w : WorkerId) (attempt : Nat)
    (response : Message) : Except SchedulerError Unit × Scheduler → Master
  | (.ok (), s) => { m with scheduler := s }.closeIfDraining d t w attempt response
  | (.error _, s) => { m with scheduler := s }.setDispatch d .raised

/-- `dispatch_assigned_task` after `send_task` returned a reply. -/
def handleReply (m : Master) (d : DispatchId) (t : TaskId) (w : WorkerId) (attempt : Nat)
    (response : Message) : Master :=
  if m.isCurrentAttempt t w attempt then
    if response.type ≠ .taskResult then
      m.settled d t w attempt response (m.scheduler.failTask t)
    else
      match response.get? "status" with
      | none => m.setDispatch d .raised
      | some (.str status) =>
        if status = "success" then m.settled d t w attempt response (m.scheduler.completeTask t)
        else m.settled d t w attempt response (m.scheduler.failTask t)
      | some _ => m.settled d t w attempt response (m.scheduler.failTask t)
  else m.setDispatch d (.returned response)

/-! ### Loops over the scheduler -/

/-- Create one not yet started dispatch for every task of a batch. -/
def spawn (m : Master) (batch : List TaskId) : Master :=
  { m with dispatches := m.dispatches ++ batch.map (fun t => ⟨t, .spawned⟩) }

def spawnedIds (m : Master) (batch : List TaskId) : List DispatchId :=
  (List.range batch.length).map (fun i => m.dispatches.length + i)

def setDrain (m : Master) (i : DrainId) (f : Drain → Drain) : Master :=
  { m with drains := m.drains.modify i f }

/-- Tasks of the scope that are not terminal. -/
def outstanding (m : Master) (ids : List TaskId) : List TaskId :=
  (m.tasks.entries.filter (fun e => e.1 ∈ ids && !e.2.status.terminal)).map Prod.fst

/-- One turn of the outer loop of `drain_tasks_for`, up to an `await` or the return. -/
def drainRound (m : Master) (i : DrainId) (drain : Drain) (now : Time) : Master :=
  let batch := (m.scheduler.assignAll drain.scope).1
  if batch ≠ [] then
    ({ m with scheduler := (m.scheduler.assignAll drain.scope).2 }.spawn batch).setDrain i
      (fun drain => { drain with pc := .gathering (m.spawnedIds batch) })
  else
    match drain.scope with
    | none => m.setDrain i (fun drain => { drain with pc := .returned })
    | some ids =>
      if m.outstanding ids = [] then m.setDrain i (fun drain => { drain with pc := .returned })
      else
        match drain.deadline with
        | none => m.setDrain i (fun drain =>
          { drain with pc := .sleeping, deadline := some (now + drain.timeout) })
        | some deadline =>
          if now ≥ deadline then m.setDrain i (fun drain => { drain with pc := .timedOut })
          else m.setDrain i (fun drain => { drain with pc := .sleeping })

/-- Enter `drain_tasks_for(scope)`. -/
def callDrain (m : Master) (scope : Option (List TaskId)) (timeout now : Time) : Master :=
  let drain : Drain := ⟨scope, timeout, none, [], .sleeping⟩
  { m with drains := m.drains ++ [drain] }.drainRound m.drains.length drain now

def dispatchPc (m : Master) (d : DispatchId) : Option DispatchPc :=
  (m.dispatches[d]?).map Dispatch.pc

def hasRaised (m : Master) (d : DispatchId) : Bool :=
  match m.dispatchPc d with
  | some .raised => true
  | _ => false

def result? (m : Master) (d : DispatchId) : Option Message :=
  match m.dispatchPc d with
  | some (.returned response) => some response
  | _ => none

/-- `asyncio.gather` raises as soon as a child raised, and returns the results
in batch order once all have returned; until then the drain stays suspended. -/
def gathered (m : Master) (i : DrainId) (drain : Drain) (batch : List DispatchId) (now : Time) :
    Option Master :=
  if batch.any m.hasRaised then some (m.setDrain i (fun drain => { drain with pc := .raised }))
  else
    match batch.mapM m.result? with
    | none => none
    | some results =>
      some ((m.setDrain i (fun drain => { drain with responses := drain.responses ++ results })).drainRound
        i { drain with responses := drain.responses ++ results } now)

def setMonitor (m : Master) (i : Nat) (pc : MonitorPc) : Master :=
  { m with monitors := m.monitors.set i pc }

/-- One tick of `failure_monitor`: without a dispatcher it falls back to
`drain_pending_tasks`, whose responses nobody reads. -/
def monitorTick (m : Master) (i : Nat) (now : Time) : Master :=
  let condemned := m.scheduler.condemnStale heartbeatTimeout now
  let requeued := { m with scheduler := condemned.2 }
  if condemned.1 = [] ∨ m.dispatcher = true then requeued
  else (requeued.callDrain none 30000 now).setMonitor i (.sweeping m.drains.length)

end Master

inductive Action
  | submitTask (t : TaskId) (taskType : String) (payload : List (Key × Val))
  | accept
  | connectionLost (l : LinkId)
  | receive (l : LinkId) (message : Message) (now : Time)
  | receiveInvalid (l : LinkId)
  | handlerRaises (l : LinkId)
  | replySent (l : LinkId)
  | previousClosed (l : LinkId)
  | handlerClosed (l : LinkId)
  | callDispatch (t : TaskId)
  | assignAndDispatch (scope : Option (List TaskId))
  | startDispatch (d : DispatchId) (depth : Nat)
  | sendDrained (d : DispatchId)
  | sendFails (d : DispatchId) (reason : String)
  | resumeDispatch (d : DispatchId)
  | abortDispatch (d : DispatchId)
  | connectionClosed (d : DispatchId)
  | startDispatcher
  | stopDispatcher
  | dispatcherTick
  | callDrain (scope : Option (List TaskId)) (timeout now : Time)
  | resumeDrain (i : DrainId) (now : Time)
  | abortDrain (i : DrainId)
  | startMonitor
  | monitorTick (i : Nat) (now : Time)
  | resumeMonitor (i : Nat)
  | stopCloses (l : LinkId)
  | stopClears

namespace Master

/-- Turns of the handler of link `l`. A read, a send or a close may raise. -/
def handlerTurn (m : Master) (l : LinkId) (link : Link) : Action → Option Turn
  | .receive _ message now =>
    match link.pc with
    | .reading => some (m.handleMessage l link message now)
    | _ => none
  | .receiveInvalid _ =>
    match link.pc with
    | .reading => some (.goes (m.setHandler l .rejecting))
    | _ => none
  | .handlerRaises _ =>
    match link.pc with
    | .closing | .finished => none
    | _ => some .ends
  | .replySent _ =>
    match link.pc with
    | .rejecting => some (.goes (m.setHandler l .reading))
    | .replying message response => some (m.afterReply l link message response)
    | _ => none
  | .previousClosed _ =>
    match link.pc with
    | .replacing => some (.goes (m.setHandler l .reading))
    | _ => none
  | .handlerClosed _ =>
    match link.pc with
    | .closing => some (.goes (m.setHandler l .finished))
    | _ => none
  | _ => none

def takeTurn (m : Master) (l : LinkId) (link : Link) : Turn → Master
  | .goes m' => m'
  | .ends => m.cleanup l link

/-- Steps of dispatch `d`. A send that is suspended on a lost transport raises
ConnectionError; any other exception, cancellation included, ends the call. -/
def dispatchStep (m : Master) (d : DispatchId) (dispatch : Dispatch) : Action → Option Master
  | .startDispatch _ depth =>
    match dispatch.pc with
    | .spawned => some (m.beginDispatch d dispatch.taskId depth)
    | _ => none
  | .sendDrained _ =>
    match dispatch.pc with
    | .sending l w a false reply => some (m.setDispatch d (.sending l w a true reply))
    | _ => none
  | .sendFails _ reason =>
    match dispatch.pc with
    | .sending l w a false _ =>
      if (m.links[l]?).any Link.lost then
        some ((m.popPending l dispatch.taskId a).unreachable d dispatch.taskId w a reason)
      else none
    | _ => none
  | .resumeDispatch _ =>
    match dispatch.pc with
    | .sending l w a true (.message response) =>
      some ((m.popPending l dispatch.taskId a).handleReply d dispatch.taskId w a response)
    | .sending l w a true (.failed reason) =>
      some ((m.popPending l dispatch.taskId a).unreachable d dispatch.taskId w a reason)
    | _ => none
  | .abortDispatch _ =>
    match dispatch.pc with
    | .spawned | .closing _ _ _ => some (m.setDispatch d .raised)
    | .sending l _ a _ _ => some ((m.popPending l dispatch.taskId a).setDispatch d .raised)
    | _ => none
  | .connectionClosed _ =>
    match dispatch.pc with
    | .closing _ _ response => some (m.finishDispatch d dispatch.taskId response)
    | _ => none
  | _ => none

def drainStep (m : Master) (i : DrainId) (drain : Drain) : Action → Option Master
  | .resumeDrain _ now =>
    match drain.pc with
    | .gathering batch => m.gathered i drain batch now
    | .sleeping => some (m.drainRound i drain now)
    | _ => none
  | .abortDrain _ =>
    match drain.pc with
    | .gathering _ | .sleeping => some (m.setDrain i (fun drain => { drain with pc := .raised }))
    | _ => none
  | _ => none

def monitorStep (m : Master) (i : Nat) (pc : MonitorPc) : Action → Option Master
  | .monitorTick _ now =>
    match pc with
    | .waiting => some (m.monitorTick i now)
    | _ => none
  | .resumeMonitor _ =>
    match pc with
    | .sweeping drain =>
      match (m.drains[drain]?).map Drain.pc with
      | some .returned => some (m.setMonitor i .waiting)
      | some .raised => some (m.setMonitor i .raised)
      | _ => none
    | _ => none
  | _ => none

def step (m : Master) (action : Action) : Option Master :=
  match action with
  | .submitTask t taskType payload =>
    some { m with scheduler := (m.scheduler.submitTask t taskType payload).2 }
  | .accept => some { m with links := m.links ++ [Link.fresh] }
  | .connectionLost l => some (m.loseLink l)
  | .receive l _ _ | .receiveInvalid l | .handlerRaises l | .replySent l | .previousClosed l
  | .handlerClosed l =>
    (m.links[l]?).bind (fun link => (m.handlerTurn l link action).map (m.takeTurn l link))
  | .callDispatch t => if m.tasks.contains t then some (m.spawn [t]) else none
  | .assignAndDispatch scope =>
    match m.scheduler.assignNextPendingTask scope with
    | (some t, s) => some ({ m with scheduler := s }.spawn [t])
    | (none, _) => none
  | .startDispatch d _ | .sendDrained d | .sendFails d _ | .resumeDispatch d | .abortDispatch d
  | .connectionClosed d => (m.dispatches[d]?).bind (fun dispatch => m.dispatchStep d dispatch action)
  | .startDispatcher => some { m with dispatcher := true }
  | .stopDispatcher => some { m with dispatcher := false }
  | .dispatcherTick =>
    if m.dispatcher then
      some ({ m with scheduler := (m.scheduler.assignAll none).2 }.spawn (m.scheduler.assignAll none).1)
    else none
  | .callDrain scope timeout now => some (m.callDrain scope timeout now)
  | .resumeDrain i _ | .abortDrain i => (m.drains[i]?).bind (fun drain => m.drainStep i drain action)
  | .startMonitor => some { m with monitors := m.monitors ++ [.waiting] }
  | .monitorTick i _ | .resumeMonitor i => (m.monitors[i]?).bind (fun pc => m.monitorStep i pc action)
  | .stopCloses l => if l ∈ m.connections.values then some (m.loseLink l) else none
  | .stopClears => some { m with connections := ∅ }

/-! ### Looking up links and dispatches after an update -/

theorem links_modifyLink (m : Master) (l k : LinkId) (f : Link → Link) :
    (m.modifyLink l f).links[k]? = if k = l then (m.links[k]?).map f else m.links[k]? := by
  simp only [modifyLink, List.getElem?_modify, eq_comm (a := l)]
  split <;> simp

theorem dispatches_setDispatch (m : Master) (d e : DispatchId) (pc : DispatchPc) :
    (m.setDispatch d pc).dispatches[e]? =
      if e = d then (m.dispatches[e]?).map (fun dispatch => { dispatch with pc }) else m.dispatches[e]? := by
  simp only [setDispatch, List.getElem?_modify, eq_comm (a := d)]
  split <;> simp

theorem dispatches_failPending (m : Master) (link : Link) (reason : String) (d : DispatchId) :
    (m.failPending link reason).dispatches[d]? = (m.dispatches[d]?).map (fun dispatch =>
      if d ∈ link.pending.values then dispatch.failReply reason else dispatch) := by
  simp [failPending, List.getElem?_mapIdx]

end Master
end DistributedCompute
