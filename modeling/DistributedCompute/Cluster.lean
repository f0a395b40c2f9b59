import DistributedCompute.Condemnation
import DistributedCompute.Provenance
import DistributedCompute.Traffic
import DistributedCompute.Wire

/-! The system as a whole: the async master, the workers that run `run_worker` of
`worker/async_worker.py` with the in-process backend, and the documents under way
between them. A connection delivers what was written on it in order; what the master
writes on a lost link is gone, and a worker may stop at any time. A document that is
nested deeper than the stack of its reader ends that reader: then the handler raises, or
the worker stops. A client that is no worker never connects. `served` is a history
variable, read by no step. -/
namespace DistributedCompute
open Py Relation Transition

/-! ### Messages on a connection -/

/-- The message as the other end decodes it. -/
def Message.overWire (floatRepr : BitVec 64 → String) (m : Message) : Message :=
  { m with payload := m.payload.map (fun e => (e.1, (e.2.document floatRepr).loads)) }

/-- The entries of a dict as the other end decodes them. -/
def wireEntries (floatRepr : BitVec 64 → String) (entries : List (Key × Val)) : List (Key × Val) :=
  (Dict.ofList (entries.map (fun e => (e.1.memberName floatRepr, (e.2.document floatRepr).loads)))).entries.map
    (fun e => (.str e.1, e.2))

/-- What `serve_tasks` reads from a TASK with fields as the master writes them. -/
def Message.task? (m : Message) : Option TaskMessage :=
  match m.get? "task_id", m.get? "task_type", m.get? "task_payload", m.get? "attempt" with
  | some (.str t), some (.str taskType), some (.dict payload), some (.int (.ofNat attempt)) =>
    some ⟨m.requestId, t, taskType, payload, attempt⟩
  | some (.str t), some (.str taskType), some (.dict payload), none => some ⟨m.requestId, t, taskType, payload, 1⟩
  | _, _, _, _ => none

/-- `new_request_id`; the digits of the uuid may be any text. -/
def newRequestId (uuid : String) : String := "req-" ++ uuid

/-! ### Workers -/

/-- Where `run_worker` is suspended, from `asyncio.open_connection` on. -/
inductive PeerPhase
  | connected
  | pinging (requestId : String)
  | registering (requestId : String)
  | serving
  | executing (task : TaskMessage)
  | ended

/-- A worker on its connection. `inbox` is what the master wrote and the worker has not
read, `outbox` the other way; `stopping` says that SHUTDOWN was sent. -/
structure Peer where
  runtime : Runtime
  workerId : WorkerId
  host : String
  port : Int
  phase : PeerPhase
  stopping : Bool
  inbox : List Json
  outbox : List Json
  served : List TaskMessage

inductive PeerAction
  | ping (uuid : String)
  | read (uuid : String)
  | execute
  | heartbeat (uuid : String)
  | shutdown (uuid : String)
  | stop

namespace Peer

def fresh (runtime : Runtime) (workerId : WorkerId) (host : String) (port : Int) : Peer :=
  ⟨runtime, workerId, host, port, .connected, false, [], [], []⟩

def pingRequest (uuid : String) : Message := buildMessage .ping (newRequestId uuid) []

def registerRequest (p : Peer) (uuid : String) : Message :=
  buildMessage .register (newRequestId uuid)
    [("worker_id", .str p.workerId), ("host", .str p.host), ("port", .int p.port)]

def heartbeatRequest (p : Peer) (uuid : String) : Message :=
  buildMessage .heartbeat (newRequestId uuid) [("worker_id", .str p.workerId)]

def shutdownRequest (p : Peer) (uuid : String) : Message :=
  buildMessage .shutdown (newRequestId uuid) [("worker_id", .str p.workerId)]

variable (floatRepr : BitVec 64 → String)

/-- `send_message`; a message that cannot be encoded raises. -/
def send (p : Peer) (message : Message) (next : PeerPhase) : Peer :=
  match encodeDocument floatRepr p.runtime.jsonDepth message with
  | .ok document => { p with outbox := p.outbox ++ [document], phase := next }
  | .error _ => { p with phase := .ended }

/-- The worker goes on with a message it has read. Neither PING nor REGISTER looks at
the type or the request_id of its reply. -/
def handle (p : Peer) (uuid : String) (message : Message) : Peer :=
  match p.phase with
  | .pinging _ => p.send floatRepr (p.registerRequest uuid) (.registering (newRequestId uuid))
  | .registering _ => { p with phase := .serving }
  | _ =>
    if message.type ≠ .task then p
    else
      match message.task? with
      | some task => { p with phase := .executing task }
      | none => { p with phase := .ended }

/-- `receive_message` in the phases that await one. A document that cannot be decoded
raises an error that nothing catches. -/
def read (p : Peer) (uuid : String) : Option Peer :=
  match p.phase, p.inbox with
  | .pinging _, document :: rest | .registering _, document :: rest | .serving, document :: rest =>
    match decodeMessage document with
    | .ok message => some (handle floatRepr { p with inbox := rest } uuid message)
    | .error _ => some { p with inbox := rest, phase := .ended }
  | _, _ => none

/-- The task is executed and its result sent; an exception ends the worker. -/
def execute (p : Peer) (task : TaskMessage) : Peer :=
  match p.runtime.serveTask task with
  | some reply => send floatRepr { p with served := p.served ++ [task] } reply .serving
  | none => { p with served := p.served ++ [task], phase := .ended }

/-- The heartbeat loop and the shutdown watcher run next to `serve_tasks`. -/
def isServing (p : Peer) : Bool :=
  match p.phase with
  | .serving | .executing _ => true
  | _ => false

def act (p : Peer) : PeerAction → Option Peer
  | .ping uuid =>
    match p.phase with
    | .connected => some (p.send floatRepr (pingRequest uuid) (.pinging (newRequestId uuid)))
    | _ => none
  | .read uuid => p.read floatRepr uuid
  | .execute =>
    match p.phase with
    | .executing task => some (p.execute floatRepr task)
    | _ => none
  | .heartbeat uuid => if p.isServing then some (p.send floatRepr (p.heartbeatRequest uuid) p.phase) else none
  | .shutdown uuid =>
    if p.isServing && !p.stopping then
      some (send floatRepr { p with stopping := true } (p.shutdownRequest uuid) p.phase)
    else none
  | .stop => some { p with phase := .ended }

end Peer

/-! ### The cluster -/

/-- The peer at place `l` is the other end of link `l`. -/
structure Cluster where
  master : Master
  peers : List Peer

inductive ClusterAction
  | connect (runtime : Runtime) (workerId : WorkerId) (host : String) (port : Int)
  | master (a : Action)
  | deliver (l : LinkId) (now : Time)
  | worker (l : LinkId) (a : PeerAction)

/-- What the master does of its own, and not because of what a worker did. -/
def Action.internal : Action → Bool
  | .accept | .receive _ _ _ | .receiveInvalid _ => false
  | _ => true

namespace Cluster

def initial : Cluster := ⟨Master.initial, []⟩

variable (floatRepr : BitVec 64 → String)

/-- The documents that reach the other end of link `l` when `message` is written on
link `k`: a reply, or a TASK that was encoded before. -/
def arriving (m : Master) (written : Option (LinkId × Message)) (l : LinkId) : List Json :=
  match written with
  | none => []
  | some (k, message) =>
    if k = l ∧ (m.links[l]?).all (fun link => !link.lost) then [message.document floatRepr]
    else []

/-- The master is now in state `m` and has written a message. -/
def write (c : Cluster) (m : Master) (written : Option (LinkId × Message)) : Cluster :=
  ⟨m, c.peers.mapIdx (fun l p => { p with inbox := p.inbox ++ arriving floatRepr m written l })⟩

def take (c : Cluster) (a : Action) : Option Cluster :=
  (c.master.step a).map (fun m => c.write floatRepr m (m.written a))

/-- The handler of link `l` reads the next document. -/
def deliver (c : Cluster) (l : LinkId) (now : Time) : Option Cluster :=
  match (c.peers[l]?).map Peer.outbox with
  | some (document :: rest) =>
    let read : Cluster := { c with peers := c.peers.modify l (fun p => { p with outbox := rest }) }
    match decodeMessage document with
    | .ok message => read.take floatRepr (.receive l message now)
    | .error (.protocolError text) =>
      (c.master.step (.receiveInvalid l)).map
        (fun m => read.write floatRepr m (some (l, buildError "unknown" "INVALID_MESSAGE" text)))
    | .error (.valueError _) => read.take floatRepr (.handlerRaises l)
  | _ => none

def step (c : Cluster) : ClusterAction → Option Cluster
  | .connect runtime workerId host port =>
    (c.master.step .accept).map (fun m => ⟨m, c.peers ++ [Peer.fresh runtime workerId host port]⟩)
  | .master a => if a.internal then c.take floatRepr a else none
  | .deliver l now => c.deliver floatRepr l now
  | .worker l a =>
    ((c.peers[l]?).bind (fun p => p.act floatRepr a)).map
      (fun p => { c with peers := c.peers.modify l (fun _ => p) })

end Cluster
end DistributedCompute
