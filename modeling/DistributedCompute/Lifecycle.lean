import DistributedCompute.Replies
import DistributedCompute.WaitForTasks

/-! The runtime of the master on one event loop: the module globals of
`master/async_server.py`, the tasks and servers they refer to, and the calls of
`start_master`, `stop_master`, `stop_dispatcher`, `ensure_dispatcher_running` and
`wait_for_tasks`, around the master and the registry of responses. One step is
again the code a coroutine runs between two awaits.

`asyncio.start_server` counts as one await, which returns a listening server or
raises. Up to Python 3.11 `wait_closed` of a closed server returns at once; later it
returns when no connection that the server accepted is open. Lifecycle calls are
not cancelled. Events are not objects of their own: each `dispatcher_loop` and each
`failure_monitor` is created with a fresh one, so a reference to the event is a
reference to the task. -/
namespace DistributedCompute
open Py Futures Relation Transition

abbrev ServerId := Nat
abbrev LoopId := Nat
abbrev MonitorId := Nat

/-- A `dispatcher_loop` or `failure_monitor` task: whether its stop event is set,
and whether it has returned. -/
structure Background where
  told : Bool
  returned : Bool
  deriving DecidableEq, Repr

namespace Background

def fresh : Background := ⟨false, false⟩

def tell (b : Background) : Background := { b with told := true }

def finish (b : Background) : Background := { b with returned := true }

/-- Not told to stop, and not over. -/
def active (b : Background) : Bool := !b.told && !b.returned

end Background

inductive StartPc
  | opening
  | returned (server : ServerId)
  | raised
  deriving DecidableEq, Repr

/-- Where `stop_dispatcher` or `stop_master` is suspended, or how it ended. -/
inductive StopPc
  | waitClosed (server : ServerId)
  | loop (k : LoopId)
  | dispatches (batch : List DispatchId)
  | monitor (i : MonitorId)
  | closing (rest : List LinkId)
  | polling (deadline : Time)
  | returned
  | raised
  deriving DecidableEq, Repr

/-- A call of `stop_master`, or of `stop_dispatcher` alone. -/
structure Stop where
  whole : Bool
  pc : StopPc
  deriving DecidableEq, Repr

/-- `waitsForPeers`: Python 3.12 or later. The server of each connection is kept in
`accepted`. -/
structure MasterRuntime where
  waitsForPeers : Bool
  accepted : List ServerId
  master : Master
  registry : Registry
  servers : List Bool
  loops : List Background
  monitors : List Background
  dispatchTasks : List DispatchId
  server : Option ServerId
  masterHere : Bool
  dispatcherTask : Option LoopId
  dispatcherStopEvent : Option LoopId
  dispatcherHere : Bool
  monitorTask : Option MonitorId
  monitorStopEvent : Option MonitorId
  starts : List StartPc
  stops : List Stop

inductive RuntimeAction
  | master (a : Action)
  | accept (server : ServerId)
  | waitForTasks (taskIds : List TaskId)
  | waiter (a : WaitAction)
  | ensureDispatcherRunning
  | loopTick (k : LoopId)
  | loopReturns (k : LoopId)
  | discard (d : DispatchId)
  | monitorTick (i : MonitorId) (now : Time)
  | monitorReturns (i : MonitorId)
  | startMaster
  | serverOpened (i : Nat)
  | serverFails (i : Nat)
  | stopDispatcher
  | stopMaster
  | resumeStop (i : Nat) (now : Time)
  | closeRaises (i : Nat)

/-- Steps of the master that the runtime takes itself. -/
def Action.ofRuntime : Action → Bool
  | .accept | .startDispatcher | .stopDispatcher | .dispatcherTick | .startMonitor | .monitorTick _ _
  | .stopCloses _ | .stopClears => true
  | _ => false

def Event.record? : Event → Option (TaskId × Message)
  | .recorded t response => some (t, response)
  | _ => none

namespace MasterRuntime

def initial (waitsForPeers : Bool) : MasterRuntime :=
  ⟨waitsForPeers, [], .initial, .initial, [], [], [], [], none, false, none, none, false, none, none, [], []⟩

/-- Carry over a step of the master: `_record_task_response` is called for every
response that it records. -/
def withMaster (h : MasterRuntime) (m : Master) : MasterRuntime :=
  { h with
    master := m
    registry := ((m.history.drop h.master.history.length).filterMap Event.record?).foldl
      (fun r record => r.recordTaskResponse record.1 record.2) h.registry }

def setStop (h : MasterRuntime) (i : Nat) (pc : StopPc) : MasterRuntime :=
  { h with stops := h.stops.modify i (fun stop => { stop with pc }) }

/-! ### The dispatcher -/

def loopDone (h : MasterRuntime) (k : LoopId) : Bool := (h.loops[k]?).any Background.returned

def isDispatcherRunning (h : MasterRuntime) : Bool :=
  match h.dispatcherTask with
  | some k => h.dispatcherHere && !h.loopDone k
  | none => false

def ensureDispatcherRunning (h : MasterRuntime) : MasterRuntime :=
  if h.isDispatcherRunning then h
  else { h with
    loops := h.loops ++ [.fresh]
    dispatcherStopEvent := some h.loops.length
    dispatcherHere := true
    dispatcherTask := some h.loops.length }

/-- The inner loop of `dispatcher_loop`: every dispatch is tracked. -/
def assignPending (h : MasterRuntime) : MasterRuntime :=
  { h with
    master := { h.master with scheduler := (h.master.scheduler.assignAll none).2 }.spawn
      (h.master.scheduler.assignAll none).1
    dispatchTasks := h.dispatchTasks ++ h.master.spawnedIds (h.master.scheduler.assignAll none).1 }

/-! ### Stopping -/

def monitorRaised (h : MasterRuntime) (i : MonitorId) : Bool := h.master.monitors[i]? = some .raised

def monitorDone (h : MasterRuntime) (i : MonitorId) : Bool :=
  (h.monitors[i]?).any Background.returned || h.monitorRaised i

/-- The end of `stop_master`, or another round of its polling loop. -/
def poll (h : MasterRuntime) (i : Nat) (deadline now : Time) : MasterRuntime :=
  if h.master.connections.entries.isEmpty ∨ now ≥ deadline then
    { h with
      master := { h.master with connections := ∅ }
      registry := h.registry.clearDispatchRegistry }.setStop i .returned
  else h.setStop i (.polling deadline)

/-- The next turn of the loop that closes the connections. -/
def closeNext (h : MasterRuntime) (i : Nat) (rest : List LinkId) (now : Time) : MasterRuntime :=
  match rest with
  | [] => h.poll i (now + 2000) now
  | l :: rest => { h with master := h.master.loseLink l }.setStop i (.closing rest)

/-- `_master_failure_monitor_stop_event.set()` and the `await` of the monitor.
Either reference may be `None`, and then the call raises. -/
def tellMonitor (h : MasterRuntime) (i : Nat) : MasterRuntime :=
  match h.monitorStopEvent with
  | none => h.setStop i .raised
  | some e =>
    let told := { h with monitors := h.monitors.modify e .tell }
    match h.monitorTask with
    | none => told.setStop i .raised
    | some j => told.setStop i (.monitor j)

/-- After `stop_dispatcher`. -/
def dispatcherStopped (h : MasterRuntime) (i : Nat) (whole : Bool) : MasterRuntime :=
  if whole then h.tellMonitor i else h.setStop i .returned

/-- `stop_dispatcher` from its first line to its first `await`. -/
def beginStopDispatcher (h : MasterRuntime) (i : Nat) (whole : Bool) : MasterRuntime :=
  if h.isDispatcherRunning then
    match h.dispatcherStopEvent, h.dispatcherTask with
    | some e, some k => { h with loops := h.loops.modify e .tell }.setStop i (.loop k)
    | _, _ => h.setStop i .raised
  else h.dispatcherStopped i whole

def isMasterRunning (h : MasterRuntime) : Bool := h.server.isSome && h.masterHere

def stopMaster (h : MasterRuntime) : MasterRuntime :=
  match h.server with
  | some s =>
    if h.isMasterRunning then
      { h with servers := h.servers.set s false, stops := h.stops ++ [⟨true, .waitClosed s⟩] }
    else { h with stops := h.stops ++ [⟨true, .returned⟩] }
  | none => { h with stops := h.stops ++ [⟨true, .returned⟩] }

/-- `server.wait_closed()` is over. -/
def serverGone (h : MasterRuntime) (s : ServerId) : Bool :=
  !h.waitsForPeers || (List.range h.accepted.length).all (fun l =>
    h.accepted[l]? ≠ some s || (h.master.links[l]?).all Link.lost)

def resumeStop (h : MasterRuntime) (i : Nat) (stop : Stop) (now : Time) : Option MasterRuntime :=
  match stop.pc with
  | .waitClosed s =>
    if h.serverGone s then some ({ h with server := none, masterHere := false }.beginStopDispatcher i stop.whole)
    else none
  | .loop k =>
    if h.loopDone k then
      if h.dispatchTasks = [] then some ({ h with dispatcherTask := none }.dispatcherStopped i stop.whole)
      else some ({ h with dispatcherTask := none }.setStop i (.dispatches h.dispatchTasks))
    else none
  | .dispatches batch =>
    if batch.all h.master.callEnded then some (h.dispatcherStopped i stop.whole) else none
  | .monitor j =>
    if h.monitorRaised j then some (h.setStop i .raised)
    else if h.monitorDone j then
      some ({ h with monitorTask := none, monitorStopEvent := none }.closeNext i h.master.connections.values now)
    else none
  | .closing rest => some (h.closeNext i rest now)
  | .polling deadline => some (h.poll i deadline now)
  | .returned | .raised => none

/-! ### Starting -/

def startMaster (h : MasterRuntime) : MasterRuntime :=
  match h.server with
  | some s =>
    if h.isMasterRunning then { h with starts := h.starts ++ [.returned s] }
    else { h with starts := h.starts ++ [.opening] }
  | none => { h with starts := h.starts ++ [.opening] }

/-- `start_master` after `await asyncio.start_server(...)`. -/
def serverOpened (h : MasterRuntime) (i : Nat) : MasterRuntime :=
  { h with
    servers := h.servers ++ [true]
    server := some h.servers.length
    masterHere := true
    monitorStopEvent := some h.monitors.length
    monitorTask := some h.monitors.length
    monitors := h.monitors ++ [.fresh]
    master := { h.master with monitors := h.master.monitors ++ [.waiting] }
    starts := h.starts.set i (.returned h.servers.length) }

def step (h : MasterRuntime) : RuntimeAction → Option MasterRuntime
  | .master a => if a.ofRuntime then none else (h.master.step a).map h.withMaster
  | .accept s =>
    if h.servers[s]? = some true then some { h with
      accepted := h.accepted ++ [s]
      master := { h.master with links := h.master.links ++ [Link.fresh] } }
    else none
  | .waitForTasks taskIds =>
    some { h.ensureDispatcherRunning with registry := h.registry.waitForTasks taskIds }
  | .waiter a =>
    match a.caller? with
    | some _ => (h.registry.step a).map (fun registry => { h with registry })
    | none => none
  | .ensureDispatcherRunning => some h.ensureDispatcherRunning
  | .loopTick k =>
    match h.loops[k]? with
    | some b => if b.returned then none else some h.assignPending
    | none => none
  | .loopReturns k =>
    match h.loops[k]? with
    | some b =>
      if b.told && !b.returned then some { h with loops := h.loops.modify k .finish } else none
    | none => none
  | .discard d =>
    if h.master.callEnded d then some { h with dispatchTasks := h.dispatchTasks.filter (· ≠ d) } else none
  | .monitorTick i now =>
    match h.monitors[i]? with
    | some b =>
      if b.returned then none
      else ({ h.master with dispatcher := h.isDispatcherRunning }.step (.monitorTick i now)).map h.withMaster
    | none => none
  | .monitorReturns i =>
    match h.monitors[i]?, h.master.monitors[i]? with
    | some b, some .waiting =>
      if b.told && !b.returned then some { h with monitors := h.monitors.modify i .finish } else none
    | _, _ => none
  | .startMaster => some h.startMaster
  | .serverOpened i => if h.starts[i]? = some .opening then some (h.serverOpened i) else none
  | .serverFails i =>
    if h.starts[i]? = some .opening then some { h with starts := h.starts.set i .raised } else none
  | .stopDispatcher =>
    some (({ h with stops := h.stops ++ [⟨false, .returned⟩] } : MasterRuntime).beginStopDispatcher
      h.stops.length false)
  | .stopMaster => some h.stopMaster
  | .resumeStop i now => (h.stops[i]?).bind (fun stop => h.resumeStop i stop now)
  | .closeRaises i =>
    match (h.stops[i]?).map Stop.pc with
    | some (.closing _) => some (h.setStop i .raised)
    | _ => none

end MasterRuntime

/-! ### The history of the master only grows -/

namespace Master
variable {m m' : Master}
variable {d : DispatchId} {t : TaskId} {w : WorkerId} {attempt : Nat} {response : Message}

theorem recordIfTerminal_history (m : Master) (t : TaskId) (response : Message) :
    m.history <+: (m.recordIfTerminal t response).history := by
  unfold recordIfTerminal
  split
  · split
    · exact List.prefix_append _ _
    · exact List.prefix_refl _
  · exact List.prefix_refl _

theorem Unreached.history (outcome : Unreached m d t w attempt response m') : m.history <+: m'.history := by
  cases outcome with
  | late | unknown => exact List.prefix_refl _
  | condemned => exact recordIfTerminal_history (m.condemnedWorker w) t response

theorem Settled.history (outcome : Settled m d t w attempt response m') : m.history <+: m'.history := by
  cases outcome with
  | late | malformed | unknown => exact List.prefix_refl _
  | settled =>
    unfold closeIfDraining
    split
    · split
      · exact List.prefix_refl _
      · exact recordIfTerminal_history (m.finishedTask t w response) t response
    · exact recordIfTerminal_history (m.finishedTask t w response) t response

theorem step_history {a : Action} (taken : m.step a = some m') : m.history <+: m'.history := by
  refine step_preserves (I := fun n => m.history <+: n.history) taken ?_ ?_
  · intro mid move
    cases move with
    | cleanup =>
      rw [cleanup_history]
    | install =>
      rw [install_history]
    | handle => exact List.prefix_append _ _
    | write => exact List.prefix_append _ _
    | @unreached d t task w _ =>
      exact (unreachable_outcome (m.startedTask t) d t w task.attempt "no connection").history
    | @unencodable d t task w l _ reason =>
      exact (unreachable_outcome ((m.startedTask t).popPending l t task.attempt) d t w task.attempt reason).history
    | @sendLost d t l link w attempt reply reason =>
      exact (unreachable_outcome (m.popPending l t attempt) d t w attempt reason).history
    | @replyLost d t l w attempt reason =>
      exact (unreachable_outcome (m.popPending l t attempt) d t w attempt reason).history
    | @replied d t l w attempt response =>
      exact (handleReply_outcome (m.popPending l t attempt) d t w attempt response).history
    | @finish d t w attempt response => exact recordIfTerminal_history m t response
    | skip | submit | accept | lose | resolve | handler | startRaises | orphan | overflow | drained | abort | abandon
    | stale | clear => exact List.prefix_refl _
  · intro s s' loop kept
    cases loop <;> exact kept

end Master

namespace MasterRuntime

/-! ### What a step can do -/

inductive Change (h : MasterRuntime) : RuntimeAction → MasterRuntime → Prop
  | master {a : Action} {m : Master} : a.ofRuntime = false → h.master.step a = some m →
      Change h (.master a) (h.withMaster m)
  | accept {s : ServerId} : h.servers[s]? = some true → Change h (.accept s) { h with
      accepted := h.accepted ++ [s]
      master := { h.master with links := h.master.links ++ [Link.fresh] } }
  | waitForTasks (taskIds : List TaskId) : Change h (.waitForTasks taskIds)
      { h.ensureDispatcherRunning with registry := h.registry.waitForTasks taskIds }
  | waiter {a : WaitAction} {c : CallerId} {registry : Registry} : a.caller? = some c →
      h.registry.step a = some registry → Change h (.waiter a) { h with registry }
  | ensureDispatcherRunning : Change h .ensureDispatcherRunning h.ensureDispatcherRunning
  | loopTick {k : LoopId} {b : Background} : h.loops[k]? = some b → b.returned = false →
      Change h (.loopTick k) h.assignPending
  | loopReturns {k : LoopId} {b : Background} : h.loops[k]? = some b → b.told = true → b.returned = false →
      Change h (.loopReturns k) { h with loops := h.loops.modify k .finish }
  | discard {d : DispatchId} : h.master.callEnded d = true →
      Change h (.discard d) { h with dispatchTasks := h.dispatchTasks.filter (· ≠ d) }
  | monitorTick {i : MonitorId} {now : Time} {b : Background} {m : Master} : h.monitors[i]? = some b →
      b.returned = false →
      { h.master with dispatcher := h.isDispatcherRunning }.step (.monitorTick i now) = some m →
      Change h (.monitorTick i now) (h.withMaster m)
  | monitorReturns {i : MonitorId} {b : Background} : h.monitors[i]? = some b →
      h.master.monitors[i]? = some .waiting → b.told = true → b.returned = false →
      Change h (.monitorReturns i) { h with monitors := h.monitors.modify i .finish }
  | startMaster : Change h .startMaster h.startMaster
  | serverOpened {i : Nat} : h.starts[i]? = some .opening → Change h (.serverOpened i) (h.serverOpened i)
  | serverFails {i : Nat} : h.starts[i]? = some .opening →
      Change h (.serverFails i) { h with starts := h.starts.set i .raised }
  | stopDispatcher : Change h .stopDispatcher
      (({ h with stops := h.stops ++ [⟨false, .returned⟩] } : MasterRuntime).beginStopDispatcher h.stops.length false)
  | stopMaster : Change h .stopMaster h.stopMaster
  | resumeStop {i : Nat} {stop : Stop} {now : Time} {h' : MasterRuntime} : h.stops[i]? = some stop →
      h.resumeStop i stop now = some h' → Change h (.resumeStop i now) h'
  | closeRaises {i : Nat} {whole : Bool} {rest : List LinkId} : h.stops[i]? = some ⟨whole, .closing rest⟩ →
      Change h (.closeRaises i) (h.setStop i .raised)

variable {h h' : MasterRuntime}

variable {a : RuntimeAction} {i : Nat} {stop : Stop} {now : Time} {m : Master}

theorem step_change (taken : h.step a = some h') : Change h a h' := by
  cases a with
  | master a =>
    simp only [step] at taken
    split at taken
    · cases taken
    · rename_i outside
      obtain ⟨m, moved, rfl⟩ := Option.map_eq_some_iff.mp taken
      exact .master (by simpa using outside) moved
  | accept s =>
    obtain ⟨listens, ⟨⟩⟩ := Option.ite_none_right_eq_some.mp taken
    exact .accept listens
  | waitForTasks taskIds =>
    cases taken
    exact .waitForTasks taskIds
  | waiter a =>
    simp only [step] at taken
    split at taken
    · rename_i c named
      obtain ⟨r, moved, rfl⟩ := Option.map_eq_some_iff.mp taken
      exact .waiter named moved
    · cases taken
  | ensureDispatcherRunning =>
    cases taken
    exact .ensureDispatcherRunning
  | loopTick k =>
    simp only [step] at taken
    split at taken
    · rename_i b there
      split at taken
      · cases taken
      · rename_i runs
        cases taken
        exact .loopTick there (by simpa using runs)
    · cases taken
  | loopReturns k =>
    simp only [step] at taken
    split at taken
    · rename_i b there
      obtain ⟨ends, ⟨⟩⟩ := Option.ite_none_right_eq_some.mp taken
      simp only [Bool.and_eq_true, Bool.not_eq_eq_eq_not, Bool.not_true] at ends
      exact .loopReturns there ends.1 ends.2
    · cases taken
  | discard d =>
    obtain ⟨ended, ⟨⟩⟩ := Option.ite_none_right_eq_some.mp taken
    exact .discard ended
  | monitorTick i now =>
    simp only [step] at taken
    split at taken
    · rename_i b there
      split at taken
      · cases taken
      · rename_i runs
        obtain ⟨m, moved, rfl⟩ := Option.map_eq_some_iff.mp taken
        exact .monitorTick there (by simpa using runs) moved
    · cases taken
  | monitorReturns i =>
    simp only [step] at taken
    split at taken
    · rename_i b there waiting
      obtain ⟨ends, ⟨⟩⟩ := Option.ite_none_right_eq_some.mp taken
      simp only [Bool.and_eq_true, Bool.not_eq_eq_eq_not, Bool.not_true] at ends
      exact .monitorReturns there waiting ends.1 ends.2
    · cases taken
  | startMaster =>
    cases taken
    exact .startMaster
  | serverOpened i =>
    obtain ⟨opens, ⟨⟩⟩ := Option.ite_none_right_eq_some.mp taken
    exact .serverOpened opens
  | serverFails i =>
    obtain ⟨opens, ⟨⟩⟩ := Option.ite_none_right_eq_some.mp taken
    exact .serverFails opens
  | stopDispatcher =>
    cases taken
    exact .stopDispatcher
  | stopMaster =>
    cases taken
    exact .stopMaster
  | resumeStop i now =>
    obtain ⟨stop, found, resumed⟩ := Option.bind_eq_some_iff.mp taken
    exact .resumeStop found resumed
  | closeRaises i =>
    simp only [step] at taken
    split at taken
    · rename_i rest at_
      cases taken
      obtain ⟨⟨whole, pc⟩, found, same⟩ := Option.map_eq_some_iff.mp at_
      cases same
      exact .closeRaises found
    · cases taken

/-- How a stop call goes on from where it waits. -/
inductive StopChange (h : MasterRuntime) (i : Nat) (stop : Stop) (now : Time) : MasterRuntime → Prop
  | serverClosed {s : ServerId} : stop.pc = .waitClosed s → h.serverGone s = true → StopChange h i stop now
      ({ h with server := none, masterHere := false }.beginStopDispatcher i stop.whole)
  | noDispatches {k : LoopId} : stop.pc = .loop k → h.loopDone k = true → StopChange h i stop now
      ({ h with dispatcherTask := none }.dispatcherStopped i stop.whole)
  | gathers {k : LoopId} : stop.pc = .loop k → h.loopDone k = true → StopChange h i stop now
      ({ h with dispatcherTask := none }.setStop i (.dispatches h.dispatchTasks))
  | gathered {batch : List DispatchId} : stop.pc = .dispatches batch → batch.all h.master.callEnded = true →
      StopChange h i stop now (h.dispatcherStopped i stop.whole)
  | monitorRaised {j : MonitorId} : stop.pc = .monitor j → h.monitorRaised j = true →
      StopChange h i stop now (h.setStop i .raised)
  | monitorDone {j : MonitorId} : stop.pc = .monitor j → h.monitorDone j = true → StopChange h i stop now
      ({ h with monitorTask := none, monitorStopEvent := none }.closeNext i h.master.connections.values now)
  | closes {rest : List LinkId} : stop.pc = .closing rest → StopChange h i stop now (h.closeNext i rest now)
  | polls {deadline : Time} : stop.pc = .polling deadline → StopChange h i stop now (h.poll i deadline now)

theorem resumeStop_change (taken : h.resumeStop i stop now = some h') :
    StopChange h i stop now h' := by
  unfold resumeStop at taken
  split at taken
  · obtain ⟨gone, ⟨⟩⟩ := Option.ite_none_right_eq_some.mp taken
    exact .serverClosed ‹_› gone
  · obtain ⟨done, taken⟩ := Option.ite_none_right_eq_some.mp taken
    split at taken
    · cases taken
      exact .noDispatches ‹_› done
    · cases taken
      exact .gathers ‹_› done
  · obtain ⟨ended, ⟨⟩⟩ := Option.ite_none_right_eq_some.mp taken
    exact .gathered ‹_› ended
  · split at taken
    · rename_i raised
      cases taken
      exact .monitorRaised ‹_› raised
    · obtain ⟨done, ⟨⟩⟩ := Option.ite_none_right_eq_some.mp taken
      exact .monitorDone ‹_› done
  · cases taken
    exact .closes ‹_›
  · cases taken
    exact .polls ‹_›
  · cases taken
  · cases taken

/-! ### Every step of the runtime is a run of the master and one of the registry -/

/-- The runs of the parts, and the responses that the master records in them. -/
structure Refines (h h' : MasterRuntime) : Prop where
  master : Steps Master.step anyStep h.master h'.master
  registry : Steps Registry.step Registry.anyWait h.registry h'.registry
  records : ∃ more, h'.master.history = h.master.history ++ more ∧
    h'.registry.log = h.registry.log ++ more.filterMap Event.record?

theorem Refines.refl (h : MasterRuntime) : h.Refines h := ⟨.refl, .refl, [], by simp⟩

theorem Refines.of_eq (master : h'.master = h.master) (registry : h'.registry = h.registry) :
    h.Refines h' :=
  ⟨master ▸ .refl, registry ▸ .refl, [], by simp [master], by simp [registry]⟩

theorem Refines.trans {h'' : MasterRuntime} (first : h.Refines h') (second : h'.Refines h'') :
    h.Refines h'' := by
  obtain ⟨more, history, log⟩ := first.records
  obtain ⟨more', history', log'⟩ := second.records
  exact ⟨first.master.trans second.master, first.registry.trans second.registry, more ++ more',
    by rw [history', history, List.append_assoc], by rw [log', log, List.filterMap_append, List.append_assoc]⟩

/-- Nothing but globals and calls changed before. -/
theorem Refines.of_same {h₁ : MasterRuntime} (later : h₁.Refines h') (master : h₁.master = h.master)
    (registry : h₁.registry = h.registry) : h.Refines h' :=
  (Refines.of_eq master registry).trans later

theorem ensureDispatcherRunning_master (h : MasterRuntime) : h.ensureDispatcherRunning.master = h.master := by
  unfold ensureDispatcherRunning
  split <;> rfl

theorem ensureDispatcherRunning_registry (h : MasterRuntime) :
    h.ensureDispatcherRunning.registry = h.registry := by
  unfold ensureDispatcherRunning
  split <;> rfl

theorem registry_records (records : List (TaskId × Message)) (r : Registry) :
    Steps Registry.step Registry.anyWait r (records.foldl (fun r e => r.recordTaskResponse e.1 e.2) r) ∧
      (records.foldl (fun r e => r.recordTaskResponse e.1 e.2) r).log = r.log ++ records := by
  induction records generalizing r with
  | nil => exact ⟨.refl, by simp⟩
  | cons record rest ih =>
    obtain ⟨run, log⟩ := ih (r.recordTaskResponse record.1 record.2)
    refine ⟨(Steps.snoc .refl trivial (a := .record record.1 record.2) rfl).trans run, ?_⟩
    rw [List.foldl_cons, log]
    simp [Registry.recordTaskResponse]

/-- A step of the master, with its records passed on. -/
theorem refines_withMaster {a : Action} (taken : h.master.step a = some m) :
    h.Refines (h.withMaster m) := by
  obtain ⟨more, history⟩ := Master.step_history taken
  have recorded : m.history.drop h.master.history.length = more := by rw [← history, List.drop_left]
  obtain ⟨run, log⟩ := registry_records (more.filterMap Event.record?) h.registry
  refine ⟨.snoc .refl trivial taken, ?_, more, history.symm, ?_⟩
  · rw [withMaster, recorded]
    exact run
  · rw [withMaster, recorded]
    exact log

/-- A run of the master that records nothing. -/
theorem refines_quiet (run : Steps Master.step anyStep h.master m) (history : m.history = h.master.history) :
    h.Refines { h with master := m } :=
  ⟨run, .refl, [], by simp [history], by simp⟩

theorem refines_assignPending (h : MasterRuntime) : h.Refines h.assignPending := by
  have run : Steps Master.step anyStep h.master h.assignPending.master := by
    refine .snoc (.snoc (.snoc .refl trivial (a := .startDispatcher) rfl) trivial (a := .dispatcherTick) rfl) trivial
      (a := if h.master.dispatcher then .startDispatcher else .stopDispatcher) ?_
    cases running : h.master.dispatcher <;> simp [Master.step, assignPending, running, Master.spawn]
  exact ⟨run, .refl, [], by simp [assignPending, Master.spawn], by simp [assignPending]⟩

theorem refines_dispatcherStopped (h : MasterRuntime) (i : Nat) (whole : Bool) :
    h.Refines (h.dispatcherStopped i whole) := by
  unfold dispatcherStopped tellMonitor
  split
  · split
    · exact .of_eq rfl rfl
    · dsimp only
      split <;> exact .of_eq rfl rfl
  · exact .of_eq rfl rfl

theorem refines_beginStopDispatcher (h : MasterRuntime) (i : Nat) (whole : Bool) :
    h.Refines (h.beginStopDispatcher i whole) := by
  unfold beginStopDispatcher
  split
  · split <;> exact .of_eq rfl rfl
  · exact refines_dispatcherStopped h i whole

theorem refines_poll (h : MasterRuntime) (i : Nat) (deadline now : Time) : h.Refines (h.poll i deadline now) := by
  unfold poll
  split
  · exact ⟨.snoc .refl trivial (a := .stopClears) rfl, .snoc .refl trivial (a := .clear) rfl, [], by simp [setStop],
      by simp [setStop, Registry.clearDispatchRegistry]⟩
  · exact .of_eq rfl rfl

theorem refines_closeNext (h : MasterRuntime) (i : Nat) (rest : List LinkId) (now : Time) :
    h.Refines (h.closeNext i rest now) := by
  cases rest with
  | nil => exact refines_poll h i _ now
  | cons l rest =>
    exact (refines_quiet (.snoc .refl trivial (a := .connectionLost l) rfl) rfl).trans (.of_eq rfl rfl)

theorem StopChange.refines (change : StopChange h i stop now h') :
    h.Refines h' := by
  cases change with
  | serverClosed => exact (refines_beginStopDispatcher _ i stop.whole).of_same rfl rfl
  | noDispatches => exact (refines_dispatcherStopped _ i stop.whole).of_same rfl rfl
  | gathered => exact refines_dispatcherStopped h i stop.whole
  | gathers | monitorRaised => exact .of_eq rfl rfl
  | monitorDone => exact (refines_closeNext _ i _ now).of_same rfl rfl
  | closes => exact refines_closeNext h i _ now
  | polls => exact refines_poll h i _ now

theorem step_refines (taken : h.step a = some h') : h.Refines h' := by
  cases step_change taken with
  | master _ moved => exact refines_withMaster moved
  | accept => exact (refines_quiet (.snoc .refl trivial (a := .accept) rfl) rfl).trans (.of_eq rfl rfl)
  | waitForTasks taskIds =>
    refine ⟨?_, .snoc .refl trivial (a := .call taskIds) rfl, [], ?_, ?_⟩
    · rw [ensureDispatcherRunning_master]
      exact .refl
    · rw [ensureDispatcherRunning_master, List.append_nil]
    · simp [Registry.waitForTasks_log]
  | waiter named moved =>
    exact ⟨.refl, .snoc .refl trivial moved, [], by simp, by simp [Registry.turn_log named moved]⟩
  | ensureDispatcherRunning => exact .of_eq h.ensureDispatcherRunning_master h.ensureDispatcherRunning_registry
  | loopTick => exact refines_assignPending h
  | monitorTick _ _ moved =>
    have flagged : h.Refines { h with master := { h.master with dispatcher := h.isDispatcherRunning } } := by
      refine refines_quiet (.snoc .refl trivial
        (a := if h.isDispatcherRunning then .startDispatcher else .stopDispatcher) ?_) rfl
      cases running : h.isDispatcherRunning <;> simp [Master.step]
    exact flagged.trans (refines_withMaster moved)
  | startMaster =>
    unfold startMaster
    split
    · split <;> exact .of_eq rfl rfl
    · exact .of_eq rfl rfl
  | serverOpened => exact (refines_quiet (.snoc .refl trivial (a := .startMonitor) rfl) rfl).trans (.of_eq rfl rfl)
  | stopDispatcher => exact (refines_beginStopDispatcher _ _ false).of_same rfl rfl
  | stopMaster =>
    unfold stopMaster
    split
    · split <;> exact .of_eq rfl rfl
    · exact .of_eq rfl rfl
  | resumeStop _ resumed => exact (resumeStop_change resumed).refines
  | loopReturns | discard | monitorReturns | serverFails | closeRaises => exact .of_eq rfl rfl

theorem refines_of_run {ok : MasterRuntime → RuntimeAction → Prop} (run : Steps step ok h h') : h.Refines h' :=
  run.invariant (I := h.Refines) (.refl h) (fun _ _ _ before _ taken => before.trans (step_refines taken))

end MasterRuntime

/-! ### One runtime at a time -/

/-- A `stop_master` call that has yet to tell the monitor. -/
def StopPc.early : StopPc → Bool
  | .waitClosed _ | .loop _ | .dispatches _ => true
  | _ => false

def StopPc.awaitsServer : StopPc → Bool
  | .waitClosed _ => true
  | _ => false

def StopPc.awaitsMonitor : StopPc → Bool
  | .monitor _ => true
  | _ => false

def StopPc.awaitsLoop : StopPc → Bool
  | .loop _ => true
  | _ => false

def Stop.early (stop : Stop) : Bool := stop.whole && stop.pc.early

/-- A `stop_master` call that has yet to reset the references to the monitor. -/
def Stop.settling (stop : Stop) : Bool := stop.whole && (stop.pc.early || stop.pc.awaitsMonitor)

variable {bs : List Background} {e k : Nat} {b : Background}

theorem active_of_tell (there : (bs.modify e Background.tell)[k]? = some b) (active : b.active = true) :
    k ≠ e ∧ bs[k]? = some b := by
  rw [getElem?_modify_ite] at there
  split at there
  · obtain ⟨before, _, rfl⟩ := Option.map_eq_some_iff.mp there
    simp [Background.active, Background.tell] at active
  · rename_i other
    exact ⟨other, there⟩

theorem active_of_finish (there : (bs.modify e Background.finish)[k]? = some b) (active : b.active = true) :
    bs[k]? = some b := by
  rw [getElem?_modify_ite] at there
  split at there
  · obtain ⟨before, _, rfl⟩ := Option.map_eq_some_iff.mp there
    simp [Background.active, Background.finish] at active
  · exact there

namespace MasterRuntime

/-- Start and ensure are called only when no other call is about to assign the
references they set. -/
def orderly (h : MasterRuntime) : RuntimeAction → Bool
  | .startMaster => h.isMasterRunning || (!h.starts.contains .opening && h.stops.all (fun stop => !stop.settling))
  | .ensureDispatcherRunning | .waitForTasks _ =>
    h.isDispatcherRunning || h.stops.all (fun stop => !stop.pc.awaitsLoop)
  | _ => true

/-- No task of the list is running without having been told to stop. -/
def Quiet (bs : List Background) : Prop := ∀ (k : Nat) (b : Background), bs[k]? = some b → b.active = false

/-- Who may refer to what, in a run of orderly calls. -/
structure Governed (h : MasterRuntime) : Prop where
  here : h.masterHere = h.server.isSome
  dispatcher : ∀ k, h.dispatcherTask = some k → h.dispatcherStopEvent = some k ∧ h.dispatcherHere = true
  loops : ∀ (k : LoopId) (b : Background), h.loops[k]? = some b → b.active = true → h.dispatcherTask = some k
  awaitsLoop : ∀ stop ∈ h.stops, stop.pc.awaitsLoop = true → Quiet h.loops
  servers : ∀ s : ServerId, h.servers[s]? = some true → h.server = some s
  awaitsServer : ∀ stop ∈ h.stops, stop.pc.awaitsServer = true →
    stop.whole = true ∧ ∀ s : ServerId, h.servers[s]? ≠ some true
  monitors : ∀ (i : MonitorId) (b : Background), h.monitors[i]? = some b → b.active = true →
    h.monitorTask = some i ∧ h.monitorStopEvent = some i ∧
      (h.server.isSome = true ∨ ∃ stop ∈ h.stops, stop.early = true)
  awaitsMonitor : ∀ stop ∈ h.stops, stop.pc.awaitsMonitor = true → stop.whole = true ∧ Quiet h.monitors
  opening : .opening ∈ h.starts → h.server = none ∧ ∀ stop ∈ h.stops, stop.settling = false
  alone : ∀ i j : Nat, h.starts[i]? = some .opening → h.starts[j]? = some .opening → i = j

theorem governed_initial (waitsForPeers : Bool) : (initial waitsForPeers).Governed where
  here := rfl
  dispatcher _ h := by cases h
  loops _ _ h := by cases h
  awaitsLoop _ h := by cases h
  servers _ h := by cases h
  awaitsServer _ h := by cases h
  monitors _ _ h := by cases h
  awaitsMonitor _ h := by cases h
  opening h := by cases h
  alone _ _ h := by cases h

variable {h : MasterRuntime} {i : Nat} {stop : Stop} {whole : Bool}

theorem mem_setStop {pc : StopPc} (member : stop ∈ (h.setStop i pc).stops) :
    stop ∈ h.stops ∨ ∃ before, h.stops[i]? = some before ∧ stop = { before with pc } := by
  obtain ⟨k, there⟩ := List.mem_iff_getElem?.mp member
  rw [setStop, getElem?_modify_ite] at there
  split at there
  · rename_i same
    obtain ⟨before, found, rfl⟩ := Option.map_eq_some_iff.mp there
    exact .inr ⟨before, same ▸ found, rfl⟩
  · exact .inl (List.mem_of_getElem? there)

/-- A stop call moves on: what it waits for is over, and it leaves the early part
only when no monitor is active. -/
theorem Governed.setStop (governed : h.Governed) (i : Nat) (pc : StopPc) (loop : pc.awaitsLoop = true → Quiet h.loops)
    (server : pc.awaitsServer = false) (monitor : pc.awaitsMonitor = true →
      (∀ before, h.stops[i]? = some before → before.whole = true) ∧ Quiet h.monitors)
    (late : pc.early = true ∨ Quiet h.monitors ∨ ∀ before, h.stops[i]? = some before → before.early = false)
    (closed : (pc.early || pc.awaitsMonitor) = true →
      ∀ before, h.stops[i]? = some before → before.whole = true → .opening ∉ h.starts) :
    (h.setStop i pc).Governed where
  here := governed.here
  dispatcher := governed.dispatcher
  loops := governed.loops
  awaitsLoop := by
    intro stop member waits
    rcases mem_setStop member with old | ⟨before, _, rfl⟩
    · exact governed.awaitsLoop stop old waits
    · exact loop waits
  servers := governed.servers
  awaitsServer := by
    intro stop member waits
    rcases mem_setStop member with old | ⟨before, _, rfl⟩
    · exact governed.awaitsServer stop old waits
    · rw [server] at waits
      cases waits
  monitors := by
    intro j b there active
    obtain ⟨task, event, reached⟩ := governed.monitors j b there active
    refine ⟨task, event, reached.imp_right ?_⟩
    rintro ⟨stop, member, early⟩
    obtain ⟨k, found⟩ := List.mem_iff_getElem?.mp member
    have after := getElem?_modify_ite h.stops i k (fun stop => { stop with pc })
    by_cases same : k = i
    · rcases late with still | quiet | past
      · refine ⟨{ stop with pc }, List.mem_of_getElem? (i := k) ?_, ?_⟩
        · rw [MasterRuntime.setStop, after, if_pos same, found]
          rfl
        · simp only [Stop.early, Bool.and_eq_true] at early ⊢
          exact ⟨early.1, still⟩
      · rw [quiet j b there] at active
        cases active
      · rw [past stop (same ▸ found)] at early
        cases early
    · refine ⟨stop, List.mem_of_getElem? (i := k) ?_, early⟩
      rw [MasterRuntime.setStop, after, if_neg same, found]
  awaitsMonitor := by
    intro stop member waits
    rcases mem_setStop member with old | ⟨before, found, rfl⟩
    · exact governed.awaitsMonitor stop old waits
    · exact ⟨(monitor waits).1 before found, (monitor waits).2⟩
  opening := by
    intro opens
    obtain ⟨none, calm⟩ := governed.opening opens
    refine ⟨none, ?_⟩
    intro stop member
    rcases mem_setStop member with old | ⟨before, found, rfl⟩
    · exact calm stop old
    · refine Bool.eq_false_iff.mpr (fun settles => ?_)
      simp only [Stop.settling, Bool.and_eq_true] at settles
      exact closed settles.2 before found settles.1 opens
  alone := governed.alone

theorem Governed.tellLoop (governed : h.Governed) (e : LoopId) :
    ({ h with loops := h.loops.modify e .tell } : MasterRuntime).Governed :=
  { governed with
    loops := fun k b there active => governed.loops k b (active_of_tell there active).2 active
    awaitsLoop := fun stop member waits k b there => Bool.eq_false_iff.mpr fun active => by
      rw [governed.awaitsLoop stop member waits k b (active_of_tell there active).2] at active
      cases active }

variable {k : LoopId} {h' : MasterRuntime}

/-- The loop in charge is the only one that could be active. -/
theorem Governed.quiet_tellLoop (governed : h.Governed) (charge : h.dispatcherTask = some k) :
    Quiet (h.loops.modify k .tell) := by
  intro j b there
  refine Bool.eq_false_iff.mpr fun active => ?_
  obtain ⟨other, before⟩ := active_of_tell there active
  have same := (governed.loops j b before active).symm.trans charge
  exact other (Option.some.inj same)

theorem Governed.tellMonitors (governed : h.Governed) (e : MonitorId) :
    ({ h with monitors := h.monitors.modify e .tell } : MasterRuntime).Governed :=
  { governed with
    monitors := fun i b there active => governed.monitors i b (active_of_tell there active).2 active
    awaitsMonitor := fun stop member waits => ⟨(governed.awaitsMonitor stop member waits).1, fun k b there =>
      Bool.eq_false_iff.mpr fun active => by
        rw [(governed.awaitsMonitor stop member waits).2 k b (active_of_tell there active).2] at active
        cases active⟩ }

/-- What is known of the stop call at `i`: its kind, and that no server is being
opened while it stops the master. -/
structure Stopping (stops : List Stop) (starts : List StartPc) (i : Nat) (whole : Bool) : Prop where
  kind : ∀ before, stops[i]? = some before → before.whole = whole
  closed : whole = true → .opening ∉ starts

theorem Stopping.closed_of_whole {stops : List Stop} {starts : List StartPc}
    (stopping : Stopping stops starts i whole) (before : Stop) (found : stops[i]? = some before)
    (entire : before.whole = true) : .opening ∉ starts :=
  stopping.closed (stopping.kind before found ▸ entire)

theorem Governed.tellMonitor (governed : h.Governed) (stopping : Stopping h.stops h.starts i true) :
    (h.tellMonitor i).Governed := by
  unfold MasterRuntime.tellMonitor
  split
  · rename_i event
    have quiet : Quiet h.monitors := by
      intro j b there
      refine Bool.eq_false_iff.mpr fun active => ?_
      rw [(governed.monitors j b there active).2.1] at event
      cases event
    exact governed.setStop i .raised (fun h => by cases h) rfl (fun h => by cases h)
      (.inr (.inl quiet)) (fun _ => stopping.closed_of_whole)
  · rename_i e event
    have quiet : Quiet (h.monitors.modify e .tell) := by
      intro j b there
      refine Bool.eq_false_iff.mpr fun active => ?_
      obtain ⟨other, before⟩ := active_of_tell there active
      have same := (governed.monitors j b before active).2.1.symm.trans event
      exact other (Option.some.inj same)
    have told := governed.tellMonitors e
    dsimp only
    split
    · exact told.setStop i .raised (fun h => by cases h) rfl (fun h => by cases h)
        (.inr (.inl quiet)) (fun _ => stopping.closed_of_whole)
    · rename_i j task
      exact told.setStop i (.monitor j) (fun h => by cases h) rfl (fun _ => ⟨stopping.kind, quiet⟩)
        (.inr (.inl quiet)) (fun _ => stopping.closed_of_whole)

/-- A call that is past telling the monitor goes on or ends. -/
theorem Governed.goOn (governed : h.Governed) (i : Nat) (pc : StopPc) (here : (pc.early || pc.awaitsMonitor) = false)
    (past : ∀ before, h.stops[i]? = some before → before.early = false) : (h.setStop i pc).Governed := by
  cases pc with
  | waitClosed | loop | dispatches | monitor => cases here
  | closing | polling | returned | raised =>
    exact governed.setStop i _ (fun h => by cases h) rfl (fun h => by cases h) (.inr (.inr past))
      (fun h => by cases h)

theorem Governed.dispatcherStopped (governed : h.Governed) (stopping : Stopping h.stops h.starts i whole) :
    (h.dispatcherStopped i whole).Governed := by
  unfold MasterRuntime.dispatcherStopped
  cases whole with
  | true => exact governed.tellMonitor stopping
  | false =>
    refine governed.goOn i .returned rfl (fun before found => ?_)
    rw [Stop.early, stopping.kind before found]
    rfl

theorem Governed.beginStopDispatcher (governed : h.Governed) (stopping : Stopping h.stops h.starts i whole) :
    (h.beginStopDispatcher i whole).Governed := by
  unfold MasterRuntime.beginStopDispatcher
  by_cases running : h.isDispatcherRunning = true
  · rw [if_pos running]
    split
    · rename_i e k event charge
      obtain rfl : e = k := Option.some.inj (event.symm.trans (governed.dispatcher k charge).1)
      exact (governed.tellLoop e).setStop i (.loop e) (fun _ => governed.quiet_tellLoop charge) rfl
        (fun h => by cases h) (.inl rfl) (fun _ => stopping.closed_of_whole)
    · rename_i missing
      unfold isDispatcherRunning at running
      split at running
      · rename_i k charge
        exact absurd charge (missing k k (governed.dispatcher k charge).1)
      · cases running
  · rw [if_neg running]
    exact governed.dispatcherStopped stopping

/-- A call added at the end of the list. -/
theorem Governed.addStop (governed : h.Governed) (stop : Stop) (loop : stop.pc.awaitsLoop = false)
    (server : stop.pc.awaitsServer = true → stop.whole = true ∧ ∀ s : ServerId, h.servers[s]? ≠ some true)
    (monitor : stop.pc.awaitsMonitor = false) (closed : stop.settling = true → .opening ∉ h.starts) :
    ({ h with stops := h.stops ++ [stop] } : MasterRuntime).Governed := by
  have split : ∀ other ∈ h.stops ++ [stop], other ∈ h.stops ∨ other = stop := by simp
  refine { governed with awaitsLoop := ?_, awaitsServer := ?_, monitors := ?_, awaitsMonitor := ?_, opening := ?_ }
  · intro other member waits
    rcases split other member with old | rfl
    · exact governed.awaitsLoop other old waits
    · rw [loop] at waits
      cases waits
  · intro other member waits
    rcases split other member with old | rfl
    · exact governed.awaitsServer other old waits
    · exact server waits
  · intro i b there active
    obtain ⟨task, event, reached⟩ := governed.monitors i b there active
    refine ⟨task, event, reached.imp_right ?_⟩
    rintro ⟨other, member, early⟩
    exact ⟨other, List.mem_append_left _ member, early⟩
  · intro other member waits
    rcases split other member with old | rfl
    · exact governed.awaitsMonitor other old waits
    · rw [monitor] at waits
      cases waits
  · intro opens
    obtain ⟨none, calm⟩ := governed.opening opens
    refine ⟨none, ?_⟩
    intro other member
    rcases split other member with old | rfl
    · exact calm other old
    · exact Bool.eq_false_iff.mpr (fun settles => closed settles opens)

theorem Governed.closed_of_settling (governed : h.Governed) (member : stop ∈ h.stops)
    (settling : stop.settling = true) : .opening ∉ h.starts := by
  intro opens
  rw [(governed.opening opens).2 stop member] at settling
  cases settling

theorem Governed.poll (governed : h.Governed) (past : ∀ before, h.stops[i]? = some before → before.early = false)
    (deadline now : Time) :
    (h.poll i deadline now).Governed := by
  unfold MasterRuntime.poll
  split
  · have cleared : ({ h with
        master := { h.master with connections := ∅ }
        registry := h.registry.clearDispatchRegistry } : MasterRuntime).Governed := { governed with }
    exact cleared.goOn i .returned rfl past
  · exact governed.goOn i (.polling deadline) rfl past

theorem Governed.closeNext (governed : h.Governed) (past : ∀ before, h.stops[i]? = some before → before.early = false)
    (rest : List LinkId) (now : Time) :
    (h.closeNext i rest now).Governed := by
  cases rest with
  | nil => exact governed.poll past _ now
  | cons l rest =>
    have lost : ({ h with master := h.master.loseLink l } : MasterRuntime).Governed := { governed with }
    exact lost.goOn i (.closing rest) rfl past

/-- The dispatcher has returned, and its task is forgotten. -/
theorem Governed.released (governed : h.Governed) (member : stop ∈ h.stops) (awaits : stop.pc.awaitsLoop = true) :
    ({ h with dispatcherTask := none } : MasterRuntime).Governed :=
  { governed with
    dispatcher := fun _ h => (by cases h)
    loops := fun k b there active => absurd active
      (by rw [governed.awaitsLoop stop member awaits k b there]; exact Bool.false_ne_true) }

theorem Governed.resumeStop (governed : h.Governed) {now : Time} (found : h.stops[i]? = some stop)
    (taken : h.resumeStop i stop now = some h') : h'.Governed := by
  have member := List.mem_of_getElem? found
  have kind : ∀ before, h.stops[i]? = some before → before.whole = stop.whole := by
    intro before there
    rw [Option.some.inj (there.symm.trans found)]
  have stopping : stop.pc.early = true → Stopping h.stops h.starts i stop.whole := by
    intro early
    refine ⟨kind, fun entire => governed.closed_of_settling member ?_⟩
    rw [Stop.settling, entire, early]
    rfl
  have past : stop.pc.early = false → ∀ before, h.stops[i]? = some before → before.early = false := by
    intro late before there
    rw [Option.some.inj (there.symm.trans found), Stop.early, late, Bool.and_false]
  cases resumeStop_change taken with
  | serverClosed at_ =>
    obtain ⟨entire, silent⟩ := governed.awaitsServer stop member (by rw [at_]; rfl)
    have early : stop.early = true := by
      rw [Stop.early, entire, at_]
      rfl
    have shut : ({ h with server := none, masterHere := false } : MasterRuntime).Governed :=
      { governed with
        here := rfl
        servers := fun s there => absurd there (silent s)
        monitors := fun j b there active =>
          ⟨(governed.monitors j b there active).1, (governed.monitors j b there active).2.1,
            .inr ⟨stop, member, early⟩⟩
        opening := fun opens => ⟨rfl, (governed.opening opens).2⟩ }
    exact shut.beginStopDispatcher (stopping (by rw [at_]; rfl))
  | noDispatches at_ =>
    exact (governed.released member (by rw [at_]; rfl)).dispatcherStopped (stopping (by rw [at_]; rfl))
  | gathers at_ =>
    exact (governed.released member (by rw [at_]; rfl)).setStop i _ (fun h => by cases h) rfl (fun h => by cases h)
      (.inl rfl) (fun _ => (stopping (by rw [at_]; rfl)).closed_of_whole)
  | gathered at_ => exact governed.dispatcherStopped (stopping (by rw [at_]; rfl))
  | monitorRaised at_ => exact governed.goOn i .raised rfl (past (by rw [at_]; rfl))
  | monitorDone at_ =>
    have quiet := (governed.awaitsMonitor stop member (by rw [at_]; rfl)).2
    have reset : ({ h with monitorTask := none, monitorStopEvent := none } : MasterRuntime).Governed :=
      { governed with
        monitors := fun k b there active => absurd active (by rw [quiet k b there]; exact Bool.false_ne_true) }
    exact reset.closeNext (past (by rw [at_]; rfl)) _ now
  | closes at_ => exact governed.closeNext (past (by rw [at_]; rfl)) _ now
  | polls at_ => exact governed.poll (past (by rw [at_]; rfl)) _ now

theorem isDispatcherRunning_of_active (governed : h.Governed) {b : Background} (there : h.loops[k]? = some b)
    (active : b.active = true) : h.isDispatcherRunning = true := by
  have charge := governed.loops k b there active
  simp only [Background.active, Bool.and_eq_true, Bool.not_eq_true'] at active
  simp [isDispatcherRunning, charge, (governed.dispatcher k charge).2, loopDone, there, active.2]

theorem Governed.ensure (governed : h.Governed)
    (good : h.isDispatcherRunning = true ∨ ∀ stop ∈ h.stops, stop.pc.awaitsLoop = false) :
    h.ensureDispatcherRunning.Governed := by
  unfold ensureDispatcherRunning
  split
  · exact governed
  · rename_i stopped
    have calm := good.resolve_left stopped
    have quiet : Quiet h.loops := fun k b there =>
      Bool.eq_false_iff.mpr fun active => stopped (isDispatcherRunning_of_active governed there active)
    refine { governed with dispatcher := ?_, loops := ?_, awaitsLoop := ?_ }
    · intro k charge
      cases charge
      exact ⟨rfl, rfl⟩
    · intro k b there active
      rcases getElem?_concat_cases there with old | ⟨rfl, _⟩
      · rw [quiet k b old] at active
        cases active
      · rfl
    · intro stop member waits
      rw [calm stop member] at waits
      cases waits

theorem Governed.stopMaster (governed : h.Governed) : h.stopMaster.Governed := by
  have ended : ({ h with stops := h.stops ++ [⟨true, .returned⟩] } : MasterRuntime).Governed :=
    governed.addStop ⟨true, .returned⟩ rfl (fun h => by cases h) rfl (fun h => by cases h)
  unfold MasterRuntime.stopMaster
  split
  · rename_i s serving
    split
    · have silent : ∀ k : ServerId, (h.servers.set s false)[k]? ≠ some true := by
        intro k there
        rw [List.getElem?_set] at there
        split at there
        · split at there <;> cases there
        · rename_i other
          exact other (Option.some.inj (serving.symm.trans (governed.servers k there)))
      have shut : ({ h with servers := h.servers.set s false } : MasterRuntime).Governed :=
        { governed with
          servers := fun k there => absurd there (silent k)
          awaitsServer := fun stop member waits => ⟨(governed.awaitsServer stop member waits).1, silent⟩ }
      refine shut.addStop ⟨true, .waitClosed s⟩ rfl (fun _ => ⟨rfl, silent⟩) rfl (fun _ opens => ?_)
      rw [(governed.opening opens).1] at serving
      cases serving
    · exact ended
  · exact ended

theorem Governed.serverOpened (governed : h.Governed) (opens : h.starts[i]? = some .opening) :
    (h.serverOpened i).Governed := by
  obtain ⟨closed, calm⟩ := governed.opening (List.mem_of_getElem? opens)
  have settles : ∀ stop ∈ h.stops, stop.whole = true → (stop.pc.early || stop.pc.awaitsMonitor) = true → False := by
    intro stop member entire waits
    have settled := calm stop member
    rw [Stop.settling, entire, waits] at settled
    cases settled
  have opened : ∀ j : Nat, (h.starts.set i (.returned h.servers.length))[j]? ≠ some .opening := by
    intro j there
    rw [List.getElem?_set] at there
    split at there
    · split at there <;> cases there
    · rename_i other
      exact other (governed.alone i j opens there)
  have idle : Quiet h.monitors := by
    intro k b there
    refine Bool.eq_false_iff.mpr fun active => ?_
    rcases (governed.monitors k b there active).2.2 with serving | ⟨stop, member, early⟩
    · rw [closed] at serving
      cases serving
    · simp only [Stop.early, Bool.and_eq_true] at early
      exact settles stop member early.1 (by rw [early.2]; rfl)
  refine { governed with
    here := rfl, servers := ?_, awaitsServer := ?_, monitors := ?_, awaitsMonitor := ?_, opening := ?_, alone := ?_ }
  · intro s there
    rcases getElem?_concat_cases there with old | ⟨rfl, _⟩
    · rw [governed.servers s old] at closed
      cases closed
    · rfl
  · intro stop member waits
    refine (settles stop member (governed.awaitsServer stop member waits).1 ?_).elim
    cases at_ : stop.pc with
    | waitClosed s => rfl
    | loop | dispatches | monitor | closing | polling | returned | raised =>
      rw [at_] at waits
      cases waits
  · intro k b there active
    rcases getElem?_concat_cases there with old | ⟨rfl, _⟩
    · rw [idle k b old] at active
      cases active
    · exact ⟨rfl, rfl, .inl rfl⟩
  · intro stop member waits
    exact (settles stop member (governed.awaitsMonitor stop member waits).1 (by rw [waits, Bool.or_true])).elim
  · intro again
    obtain ⟨j, there⟩ := List.mem_iff_getElem?.mp again
    exact absurd there (opened j)
  · intro j k there
    exact absurd there (opened j)

/-- A start that is not opening a server. -/
theorem Governed.addStart (governed : h.Governed) {start : StartPc} (past : start ≠ .opening) :
    ({ h with starts := h.starts ++ [start] } : MasterRuntime).Governed := by
  have old : ∀ j : Nat, (h.starts ++ [start])[j]? = some .opening → h.starts[j]? = some .opening := by
    intro j there
    exact (getElem?_concat_cases there).resolve_right (fun last => past last.2.symm)
  refine { governed with
    opening := ?_
    alone := fun j k there there' => governed.alone j k (old j there) (old k there') }
  intro opens
  obtain ⟨j, there⟩ := List.mem_iff_getElem?.mp opens
  exact governed.opening (List.mem_of_getElem? (old j there))

theorem Governed.startMaster (governed : h.Governed)
    (good : h.isMasterRunning = true ∨ (.opening ∉ h.starts ∧ ∀ stop ∈ h.stops, stop.settling = false)) :
    h.startMaster.Governed := by
  have opens : h.server = none → ({ h with starts := h.starts ++ [.opening] } : MasterRuntime).Governed := by
    intro closed
    have stopped : h.isMasterRunning ≠ true := by simp [isMasterRunning, closed]
    obtain ⟨alone, calm⟩ := good.resolve_left stopped
    refine { governed with opening := fun _ => ⟨closed, calm⟩, alone := ?_ }
    intro j k there there'
    rcases getElem?_concat_cases there with old | ⟨rfl, _⟩
    · exact absurd (List.mem_of_getElem? old) alone
    · rcases getElem?_concat_cases there' with old | ⟨rfl, _⟩
      · exact absurd (List.mem_of_getElem? old) alone
      · rfl
  unfold MasterRuntime.startMaster
  split
  · rename_i s serving
    split
    · exact governed.addStart (fun h => by cases h)
    · rename_i stopped
      simp [isMasterRunning, governed.here, serving] at stopped
  · rename_i closed
    exact opens closed

theorem Governed.step {a : RuntimeAction} (governed : h.Governed) (good : h.orderly a = true)
    (taken : h.step a = some h') : h'.Governed := by
  cases step_change taken with
  | master | accept | waiter | loopTick | discard | monitorTick => exact { governed with }
  | waitForTasks taskIds =>
    have started := governed.ensure (by simpa [orderly] using good)
    exact { started with }
  | ensureDispatcherRunning => exact governed.ensure (by simpa [orderly] using good)
  | loopReturns =>
    exact { governed with
      loops := fun j b there active => governed.loops j b (active_of_finish there active) active
      awaitsLoop := fun stop member waits j b there => Bool.eq_false_iff.mpr fun active => by
        rw [governed.awaitsLoop stop member waits j b (active_of_finish there active)] at active
        cases active }
  | monitorReturns =>
    exact { governed with
      monitors := fun j b there active => governed.monitors j b (active_of_finish there active) active
      awaitsMonitor := fun stop member waits => ⟨(governed.awaitsMonitor stop member waits).1, fun j b there =>
        Bool.eq_false_iff.mpr fun active => by
          rw [(governed.awaitsMonitor stop member waits).2 j b (active_of_finish there active)] at active
          cases active⟩ }
  | startMaster => exact governed.startMaster (by simpa [orderly] using good)
  | serverOpened opens => exact governed.serverOpened opens
  | @serverFails i _ =>
    have old : ∀ j : Nat, (h.starts.set i .raised)[j]? = some .opening → h.starts[j]? = some .opening := by
      intro j there
      rw [List.getElem?_set] at there
      split at there
      · split at there <;> cases there
      · exact there
    refine { governed with
      opening := ?_, alone := fun j k there there' => governed.alone j k (old j there) (old k there') }
    intro opens
    obtain ⟨j, there⟩ := List.mem_iff_getElem?.mp opens
    exact governed.opening (List.mem_of_getElem? (old j there))
  | stopDispatcher =>
    have added := governed.addStop ⟨false, .returned⟩ rfl (fun h => by cases h) rfl (fun h => by cases h)
    refine added.beginStopDispatcher ⟨?_, fun h => by cases h⟩
    intro before found
    obtain rfl : before = ⟨false, .returned⟩ :=
      Option.some.inj (found.symm.trans List.getElem?_concat_length)
    rfl
  | stopMaster => exact governed.stopMaster
  | resumeStop found resumed => exact governed.resumeStop found resumed
  | @closeRaises i whole rest found =>
    refine governed.goOn i .raised rfl (fun before there => ?_)
    rw [found] at there
    cases there
    exact Bool.and_false _

/-- In every run of orderly calls each dispatcher loop, failure monitor and
listening server that was not told to stop is the one the globals refer to, so
there is at most one of each. -/
theorem one_runtime {waitsForPeers : Bool} {h : MasterRuntime}
    (run : Steps step (fun h a => h.orderly a = true) (initial waitsForPeers) h) :
    (∀ (k : LoopId) (b : Background), h.loops[k]? = some b → b.active = true → h.dispatcherTask = some k) ∧
    (∀ (i : MonitorId) (b : Background), h.monitors[i]? = some b → b.active = true → h.monitorTask = some i) ∧
    (∀ s : ServerId, h.servers[s]? = some true → h.server = some s) := by
  have governed : h.Governed :=
    run.invariant (governed_initial waitsForPeers) (fun _ _ _ before good taken => before.step good taken)
  exact ⟨governed.loops, fun i b there active => (governed.monitors i b there active).1, governed.servers⟩

/-- Start, stop with a dispatcher running, and start again. -/
theorem restartRun_referenced : ∃ h, Steps step (fun h a => h.orderly a = true) (initial true) h ∧
    h.loops = [⟨true, true⟩, .fresh] ∧ h.monitors = [⟨true, true⟩, .fresh] ∧ h.servers = [false, true] ∧
    h.dispatcherTask = some 1 ∧ h.monitorTask = some 1 ∧ h.server = some 1 := by
  obtain ⟨h, run, loops, monitors, servers⟩ : ∃ h, Steps step (fun h a => h.orderly a = true) (initial true) h ∧
      h.loops = [⟨true, true⟩, .fresh] ∧ h.monitors = [⟨true, true⟩, .fresh] ∧ h.servers = [false, true] :=
    replay_reaches [.startMaster, .serverOpened 0, .waitForTasks ["t"], .stopMaster, .resumeStop 0 0, .loopReturns 0,
      .resumeStop 0 0, .monitorReturns 0, .resumeStop 0 0, .startMaster, .serverOpened 1, .waitForTasks ["t"]]
      (by decide)
  obtain ⟨loop, monitor, server⟩ := one_runtime run
  exact ⟨h, run, loops, monitors, servers, loop 1 .fresh (by rw [loops]; rfl) rfl,
    monitor 1 .fresh (by rw [monitors]; rfl) rfl, server 1 (by rw [servers]; rfl)⟩

/-- Every run. -/
def anyCall (_ : MasterRuntime) (_ : RuntimeAction) : Prop := True

instance (h : MasterRuntime) (a : RuntimeAction) : Decidable (anyCall h a) := inferInstanceAs (Decidable True)

/-- Two `start_master` calls that overlap leave a server and a monitor behind; a
start inside a stop leaves the old monitor behind; and a dispatcher started
between the end of the old one and the resumption of `stop_dispatcher` is
forgotten. -/
theorem overlappingRuns_orphan :
    (∃ h, Steps step anyCall (initial true) h ∧ h.servers = [true, true] ∧ h.server = some 1 ∧
      h.monitors = [.fresh, .fresh] ∧ h.monitorTask = some 1) ∧
    (∃ h, Steps step anyCall (initial true) h ∧ h.monitors = [.fresh, ⟨true, false⟩] ∧ h.monitorTask = some 1) ∧
    (∃ h, Steps step anyCall (initial true) h ∧ h.loops = [⟨true, true⟩, .fresh] ∧ h.dispatcherTask = none) :=
  ⟨replay_reaches [.startMaster, .startMaster, .serverOpened 0, .serverOpened 1] (by decide),
    replay_reaches [.startMaster, .serverOpened 0, .ensureDispatcherRunning, .stopMaster, .resumeStop 0 0,
      .startMaster,
      .serverOpened 1, .loopReturns 0, .resumeStop 0 0] (by decide),
    replay_reaches [.ensureDispatcherRunning, .stopDispatcher, .loopReturns 0, .waitForTasks ["t"], .resumeStop 0 0]
      (by decide)⟩

end MasterRuntime
end DistributedCompute
