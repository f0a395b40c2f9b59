import DistributedCompute.Cluster

/-! The threaded master `master/server.py` with blocking workers `worker/worker.py`: any
number of threads that run `dispatch_assigned_task`, drains, the failure monitor, the
heartbeat listener and `accept_and_register`, in every interleaving.

A block under `_state_lock` is one step, and so is each read of the task record that is
made outside of it, and a message written to or read from a socket. A call of
`handle_request` and a call of `submit_task` outside `submit_and_dispatch_task` are one step
each as well. The code does not see to that, since they take no lock. Two REGISTERs for one
worker id that are handled at the same time, a REGISTER while the monitor iterates over the
workers, and a submission while a locked block iterates over the tasks are not covered.

Where JSON is written or read for a dispatch, the step is given the depth of nesting that
the stack of the thread has room for.

A connection is FIFO in both directions and may be lost at any time; what had arrived by
then can still be read. Two threads that receive on one socket at the same time can take
each other's bytes, so from then on whatever that socket delivers is arbitrary. Sockets
that are closed by `main` at the end of the program are not modelled. -/
namespace DistributedCompute
open Py

abbrev ConnId := Nat
abbrev ThreadId := Nat

/-! ### Connections -/

/-- Where `accept_and_register` is with a connection. -/
inductive SessionPhase
  | registering
  | acknowledged (workerId : WorkerId)
  | enlisted (workerId : WorkerId)
  | raised

/-- An accepted connection, with the worker at its other end. -/
structure Session where
  peer : Peer
  phase : SessionPhase
  lost : Bool
  garbled : Bool

namespace Session

/-- Documents are written; on a lost connection nothing arrives. -/
def hears (session : Session) (documents : List Json) : Session :=
  if session.lost then session
  else { session with peer := { session.peer with inbox := session.peer.inbox ++ documents } }

/-- The next document of the worker has been read. -/
def popped (session : Session) (rest : List Json) : Session :=
  { session with peer := { session.peer with outbox := rest } }

/-- The worker is now `peer`; what it writes on a lost connection is gone. -/
def acted (session : Session) (peer : Peer) : Session :=
  { session with peer := if session.lost then { peer with outbox := session.peer.outbox } else peer }

/-- The connection is lost after some documents have arrived. -/
def cut (session : Session) (arrived : Nat) : Session :=
  { session with lost := true, peer := { session.peer with outbox := session.peer.outbox.take arrived } }

end Session

/-- What a blocking worker does on this connection: heartbeats go elsewhere. -/
def PeerAction.blocking : PeerAction → Bool
  | .ping _ | .read _ | .execute | .stop => true
  | .heartbeat _ | .shutdown _ => false

/-! ### Dispatches -/

/-- The locals of `dispatch_assigned_task`. -/
structure Capture where
  conn : ConnId
  workerId : Option WorkerId
  attempt : Nat

/-- Where a thread is in `dispatch_assigned_task`. -/
inductive ThreadPc
  | entered
  | looked (conn : ConnId)
  | owned (conn : ConnId) (workerId : Option WorkerId)
  | captured (locals : Capture)
  | sending (locals : Capture)
  | receiving (locals : Capture)
  | answered (locals : Capture) (response : Message)
  | unreachable (locals : Capture) (reason : String)
  | returned (response : Message)
  | overflowed (depth : Nat)
  | raised

namespace ThreadPc

/-- After `recv_bytes`. A document that is no message is an error of the connection, unless
it is decoded with another error, which nothing catches. -/
def received (locals : Capture) (depth : Nat) (document : Json) : ThreadPc :=
  if depth < document.nesting then .overflowed depth
  else
    match decodeMessage document with
    | .ok response => .answered locals response
    | .error (.protocolError text) => .unreachable locals text
    | .error (.valueError _) => .raised

/-- After `recv_bytes` on a socket that threads share. -/
def garbled (locals : Capture) : Option (Except String Message) → ThreadPc
  | some (.ok response) => .answered locals response
  | some (.error reason) => .unreachable locals reason
  | none => .raised

end ThreadPc

/-- A thread on a task. `claim` is not in the code: the attempt that `start_task`, called
by this thread, has put to RUNNING. -/
structure DispatchThread where
  task : TaskId
  claim : Option Nat
  pc : ThreadPc

namespace DispatchThread

def start (t : TaskId) : DispatchThread := ⟨t, none, .entered⟩

def finished (thread : DispatchThread) : Bool :=
  match thread.pc with
  | .returned _ | .overflowed _ | .raised => true
  | _ => false

/-- What `responses[index]` holds after `join`; `None` if the thread raised. -/
def result (thread : DispatchThread) : Option Message :=
  match thread.pc with
  | .returned response => some response
  | _ => none

/-- The connection that a thread in `dispatch_task` uses. -/
def conn? (thread : DispatchThread) : Option ConnId :=
  match thread.pc with
  | .sending locals | .receiving locals => some locals.conn
  | _ => none

end DispatchThread

/-- A call of `drain_pending_tasks`: `joining` while its threads of this round run. -/
inductive ThreadedDrainPc
  | looping
  | joining (batch : List ThreadId)
  | returned

structure ThreadedDrain where
  responses : List (Option Message)
  pc : ThreadedDrainPc

structure ThreadedMaster where
  scheduler : Scheduler
  sessions : List Session
  connections : Dict WorkerId ConnId
  threads : List DispatchThread
  drains : List ThreadedDrain

inductive ThreadedAction
  | connect (runtime : Runtime) (workerId : WorkerId) (host : String) (port : Int)
  | worker (c : ConnId) (a : PeerAction)
  | lose (c : ConnId) (arrived : Nat)
  | serve (c : ConnId) (now : Time) (delivered : Bool)
  | serveFails (c : ConnId)
  | enlist (c : ConnId)
  | request (message : Message) (now : Time)
  | monitorTick (now : Time)
  | submitTask (t : TaskId) (taskType : String) (payload : List (Key × Val))
  | submitAndDispatchTask (t : TaskId) (taskType : String) (payload : List (Key × Val))
  | callDrain
  | drainRound (i : Nat)
  | drainJoins (i : Nat)
  | advance (d : ThreadId)
  | send (d : ThreadId) (depth : Nat)
  | sendFails (d : ThreadId) (reason : String)
  | receive (d : ThreadId) (depth : Nat)
  | receiveFails (d : ThreadId) (reason : String)
  | receiveGarbled (d : ThreadId) (outcome : Option (Except String Message))

/-- The TASK that `dispatch_task` sends. -/
def dispatchRequest (t : TaskId) (task : Task) (attempt : Nat) : Message :=
  buildMessage .task s!"task-{t}"
    [("task_id", .str t), ("task_type", .str task.taskType), ("task_payload", .dict task.payload),
      ("attempt", .int attempt)]

def dispatchUnreachable (t : TaskId) (reason : String) : Message :=
  buildMessage .error s!"task-{t}"
    [("task_id", .str t), ("code", .str "WORKER_UNREACHABLE"), ("message", .str reason)]

namespace ThreadedMaster

def initial : ThreadedMaster := ⟨⟨∅, ∅⟩, [], ∅, [], []⟩

abbrev tasks (m : ThreadedMaster) : Dict TaskId Task := m.scheduler.tasks

abbrev workers (m : ThreadedMaster) : WorkerManager := m.scheduler.workers

def setWorkers (m : ThreadedMaster) (ws : WorkerManager) : ThreadedMaster :=
  { m with scheduler := { m.scheduler with workers := ws } }

def setSession (m : ThreadedMaster) (c : ConnId) (f : Session → Session) : ThreadedMaster :=
  { m with sessions := m.sessions.modify c f }

def setThread (m : ThreadedMaster) (d : ThreadId) (pc : ThreadPc) : ThreadedMaster :=
  { m with threads := m.threads.modify d (fun thread => { thread with pc }) }

def setDrain (m : ThreadedMaster) (i : Nat) (drain : ThreadedDrain) : ThreadedMaster :=
  { m with drains := m.drains.set i drain }

/-- Threads for tasks that were just assigned. -/
def spawn (m : ThreadedMaster) (batch : List TaskId) : ThreadedMaster :=
  { m with threads := m.threads ++ batch.map .start }

variable (floatRepr : BitVec 64 → String)

/-! ### `accept_and_register` and the other listeners -/

/-- `conn.send_bytes` of a message that has been encoded. -/
def write (m : ThreadedMaster) (c : ConnId) (message : Message) : ThreadedMaster :=
  m.setSession c (fun session => session.hears [message.document floatRepr])

def popped (m : ThreadedMaster) (c : ConnId) (rest : List Json) : ThreadedMaster :=
  m.setSession c (fun session => session.popped rest)

def setPhase (m : ThreadedMaster) (c : ConnId) (phase : SessionPhase) : ThreadedMaster :=
  m.setSession c (fun session => { session with phase })

/-- What follows a reply: the connection of a worker that was registered is returned. -/
def afterReply (m : ThreadedMaster) (c : ConnId) (request response : Message) : ThreadedMaster :=
  match request.type, response.type, argument request "worker_id" with
  | .register, .registerAck, .str w => m.setPhase c (.acknowledged w)
  | _, _, _ => m

/-- One turn of the loop of `accept_and_register`. Unless `delivered`, sending the reply
raises. -/
def serve (m : ThreadedMaster) (c : ConnId) (session : Session) (now : Time) (delivered : Bool) :
    Option ThreadedMaster :=
  match session.phase, session.peer.outbox, delivered || session.lost with
  | .registering, document :: rest, true =>
    let read := m.popped c rest
    match decodeMessage document with
    | .error (.protocolError text) =>
      some (if delivered then read.write floatRepr c (buildError "unknown" "INVALID_MESSAGE" text)
        else read.setPhase c .raised)
    | .error (.valueError _) => some (read.setPhase c .raised)
    | .ok request =>
      match handleRequest m.workers request now with
      | .error _ => some (read.setPhase c .raised)
      | .ok (response, ws) =>
        some (if delivered then ((read.setWorkers ws).write floatRepr c response).afterReply c request response
          else (read.setWorkers ws).setPhase c .raised)
  | _, _, _ => none

/-- `connections[worker_id] = conn`. -/
def enlist (m : ThreadedMaster) (c : ConnId) (session : Session) : Option ThreadedMaster :=
  match session.phase with
  | .acknowledged w => some { m.setPhase c (.enlisted w) with connections := m.connections.insert w c }
  | _ => none

/-- `handle_heartbeat_connection` or `accept_and_handle_one`; a request that raises ends
its thread. -/
def handle (m : ThreadedMaster) (message : Message) (now : Time) : ThreadedMaster :=
  match handleRequest m.workers message now with
  | .ok (_, ws) => m.setWorkers ws
  | .error _ => m

/-! ### `dispatch_assigned_task` -/

def isCurrentAttempt (m : ThreadedMaster) (t : TaskId) (locals : Capture) : Bool :=
  match m.tasks.get? t with
  | some task => task.assignedWorkerId = locals.workerId && task.attempt = locals.attempt
  | none => false

/-- A scheduler method is the last thing that a thread calls. -/
def conclude (m : ThreadedMaster) (d : ThreadId) (response : Message)
    (call : Except SchedulerError Unit × Scheduler) : ThreadedMaster :=
  { m with scheduler := call.2 }.setThread d
    (match call.1 with
    | .ok () => .returned response
    | .error _ => .raised)

/-- The locked block after a reply, and the return. -/
def settle (m : ThreadedMaster) (d : ThreadId) (t : TaskId) (locals : Capture) (response : Message) :
    ThreadedMaster :=
  if m.isCurrentAttempt t locals = false then m.setThread d (.returned response)
  else if response.type ≠ .taskResult then m.conclude d response (m.scheduler.failTask t)
  else
    match response.get? "status" with
    | none => m.setThread d .raised
    | some status =>
      match status with
      | .str "success" => m.conclude d response (m.scheduler.completeTask t)
      | _ => m.conclude d response (m.scheduler.failTask t)

/-- The locked block after an error of the connection, and the return. `update_status`
raises for a worker id that is `None`. -/
def recover (m : ThreadedMaster) (d : ThreadId) (t : TaskId) (locals : Capture) (reason : String) :
    ThreadedMaster :=
  let response := dispatchUnreachable t reason
  if m.isCurrentAttempt t locals = false then m.setThread d (.returned response)
  else
    match locals.workerId with
    | none => m.setThread d .raised
    | some w => m.conclude d response (m.scheduler.condemn w)

/-- `start_task`, under the lock. -/
def startTask (m : ThreadedMaster) (d : ThreadId) (t : TaskId) (task : Task) (locals : Capture) : ThreadedMaster :=
  match m.scheduler.startTask t with
  | (.ok (), s) =>
    let claims (thread : DispatchThread) := { thread with claim := some task.attempt, pc := .sending locals }
    { m with scheduler := s, threads := m.threads.modify d claims }
  | (.error _, _) => m.setThread d .raised

/-- `dispatch_task` up to the call of `recv_bytes`. Nothing catches a RecursionError. -/
def send (m : ThreadedMaster) (d : ThreadId) (depth : Nat) (t : TaskId) (task : Task) (locals : Capture) :
    ThreadedMaster :=
  match encodeMessage depth (dispatchRequest t task locals.attempt) with
  | .error (.protocolError text) => m.setThread d (.unreachable locals text)
  | .error .recursionError => m.setThread d (.overflowed depth)
  | .ok request => (m.write floatRepr locals.conn request).setThread d (.receiving locals)

/-- The next step of a thread that waits for nothing. -/
def advance (m : ThreadedMaster) (d : ThreadId) (thread : DispatchThread) (task : Task) : Option ThreadedMaster :=
  match thread.pc with
  | .entered =>
    match task.assignedWorkerId.bind m.connections.get? with
    | some c => some (m.setThread d (.looked c))
    | none => some (m.setThread d .raised)
  | .looked c => some (m.setThread d (.owned c task.assignedWorkerId))
  | .owned c w => some (m.setThread d (.captured ⟨c, w, task.attempt⟩))
  | .captured locals => some (m.startTask d thread.task task locals)
  | .answered locals response => some (m.settle d thread.task locals response)
  | .unreachable locals reason => some (m.recover d thread.task locals reason)
  | .sending _ | .receiving _ | .returned _ | .overflowed _ | .raised => none

/-- `recv_bytes` and `decode_message`. -/
def receive (m : ThreadedMaster) (d : ThreadId) (depth : Nat) (locals : Capture) (session : Session) :
    Option ThreadedMaster :=
  match session.peer.outbox with
  | document :: rest => some ((m.popped locals.conn rest).setThread d (.received locals depth document))
  | [] => none

/-- Another thread is in `dispatch_task` with the same connection. -/
def shared (m : ThreadedMaster) (d : ThreadId) (c : ConnId) : Bool :=
  (List.range m.threads.length).any (fun e => e ≠ d && ((m.threads[e]?).bind DispatchThread.conn? = some c))

/-- Bytes of a socket that threads share. -/
def receiveGarbled (m : ThreadedMaster) (d : ThreadId) (locals : Capture) (session : Session)
    (outcome : Option (Except String Message)) : Option ThreadedMaster :=
  if session.garbled || m.shared d locals.conn then
    some ((m.setSession locals.conn (fun session => { session with garbled := true })).setThread d
      (.garbled locals outcome))
  else none

/-- A step of thread `d` that its connection decides. -/
def threadStep (m : ThreadedMaster) (d : ThreadId) (thread : DispatchThread) : ThreadedAction → Option ThreadedMaster
  | .advance _ => (m.tasks.get? thread.task).bind (m.advance d thread)
  | .send _ depth =>
    match thread.pc with
    | .sending locals =>
      (m.tasks.get? thread.task).map (fun task => m.send floatRepr d depth thread.task task locals)
    | _ => none
  | .sendFails _ reason =>
    match thread.pc with
    | .sending locals => (m.sessions[locals.conn]?).bind (fun session =>
      if session.lost then some (m.setThread d (.unreachable locals reason)) else none)
    | _ => none
  | .receive _ depth =>
    match thread.pc with
    | .receiving locals => (m.sessions[locals.conn]?).bind (m.receive d depth locals)
    | _ => none
  | .receiveFails _ reason =>
    match thread.pc with
    | .receiving locals => (m.sessions[locals.conn]?).bind (fun session =>
      if session.lost && session.peer.outbox.isEmpty then some (m.setThread d (.unreachable locals reason))
      else none)
    | _ => none
  | .receiveGarbled _ outcome =>
    match thread.pc with
    | .receiving locals =>
      (m.sessions[locals.conn]?).bind (fun session => m.receiveGarbled d locals session outcome)
    | _ => none
  | _ => none

/-! ### Assigning tasks -/

/-- One round of `drain_pending_tasks`, up to the joins of `dispatch_concurrently`. -/
def drainRound (m : ThreadedMaster) (i : Nat) (drain : ThreadedDrain) : Option ThreadedMaster :=
  match drain.pc with
  | .looping =>
    let assigned := m.scheduler.assignAll none
    if assigned.1.isEmpty then some (m.setDrain i { drain with pc := .returned })
    else
      let batch := List.range' m.threads.length assigned.1.length
      some (({ m with scheduler := assigned.2 }.spawn assigned.1).setDrain i { drain with pc := .joining batch })
  | _ => none

/-- All threads of the round have ended. -/
def drainJoins (m : ThreadedMaster) (i : Nat) (drain : ThreadedDrain) : Option ThreadedMaster :=
  match drain.pc with
  | .joining batch =>
    if batch.all (fun d => (m.threads[d]?).all DispatchThread.finished) then
      some (m.setDrain i ⟨drain.responses ++ batch.map (fun d => (m.threads[d]?).bind DispatchThread.result),
        .looping⟩)
    else none
  | _ => none

/-- The locked block of `submit_and_dispatch_task`; the thread is the caller's own. -/
def submitAndDispatchTask (m : ThreadedMaster) (t : TaskId) (taskType : String) (payload : List (Key × Val)) :
    ThreadedMaster :=
  match m.scheduler.submitTask t taskType payload with
  | (.error _, s) => { m with scheduler := s }
  | (.ok _, s) =>
    match s.assignNextPendingTask none with
    | (some u, s') => { m with scheduler := s' }.spawn [u]
    | (none, s') => { m with scheduler := s' }

def step (m : ThreadedMaster) (a : ThreadedAction) : Option ThreadedMaster :=
  match a with
  | .connect runtime workerId host port =>
    some { m with sessions := m.sessions ++ [⟨Peer.fresh runtime workerId host port, .registering, false, false⟩] }
  | .worker c act =>
    if act.blocking then
      (m.sessions[c]?).bind (fun session => (session.peer.act floatRepr act).map (fun peer =>
        m.setSession c (fun session => session.acted peer)))
    else none
  | .lose c arrived => (m.sessions[c]?).map (fun _ => m.setSession c (fun session => session.cut arrived))
  | .serve c now delivered => (m.sessions[c]?).bind (fun session => m.serve floatRepr c session now delivered)
  | .serveFails c => (m.sessions[c]?).bind (fun session =>
    match session.phase, session.lost && session.peer.outbox.isEmpty with
    | .registering, true => some (m.setPhase c .raised)
    | _, _ => none)
  | .enlist c => (m.sessions[c]?).bind (m.enlist c)
  | .request message now => some (m.handle message now)
  | .monitorTick now => some { m with scheduler := (m.scheduler.condemnStale heartbeatTimeout now).2 }
  | .submitTask t taskType payload => some { m with scheduler := (m.scheduler.submitTask t taskType payload).2 }
  | .submitAndDispatchTask t taskType payload => some (m.submitAndDispatchTask t taskType payload)
  | .callDrain => some { m with drains := m.drains ++ [⟨[], .looping⟩] }
  | .drainRound i => (m.drains[i]?).bind (m.drainRound i)
  | .drainJoins i => (m.drains[i]?).bind (m.drainJoins i)
  | .advance d | .send d _ | .sendFails d _ | .receive d _ | .receiveFails d _ | .receiveGarbled d _ =>
    (m.threads[d]?).bind (fun thread => m.threadStep floatRepr d thread a)

/-- No condition on the steps: every run. -/
def anyStep (_ : ThreadedMaster) (_ : ThreadedAction) : Prop := True

instance (m : ThreadedMaster) (a : ThreadedAction) : Decidable (anyStep m a) := inferInstanceAs (Decidable True)

end ThreadedMaster
end DistributedCompute
