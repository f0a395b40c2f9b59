import DistributedCompute.Master
import DistributedCompute.Transition

/-! What one step of the master can do, said once. A step is one `Micro` move
from the state it is taken in, followed by assignments and loop bookkeeping
(`Loop`). Each move lists its guards, so invariants need no further case
analysis of `Master.step`. -/
namespace DistributedCompute
open Py Relation Transition

/-- The registration a handler has been granted but not yet installed. -/
def HandlerPc.registering : HandlerPc → Option WorkerId
  | .replying message response =>
    if message.type = .register ∧ response.type = .registerAck then
      match argument message "worker_id" with
      | .str w => some w
      | _ => none
    else none
  | _ => none

def HandlerPc.ended : HandlerPc → Bool
  | .closing | .finished => true
  | _ => false

def DispatchPc.ended : DispatchPc → Bool
  | .returned _ | .raised => true
  | _ => false

/-- Program counters at which a handler holds no message. -/
def HandlerPc.quiet : HandlerPc → Bool
  | .reading | .rejecting | .finished => true
  | _ => false

/-- The link whose handler takes the action. -/
def Action.link? : Action → Option LinkId
  | .receive l _ _ | .receiveInvalid l | .handlerRaises l | .replySent l | .previousClosed l
  | .handlerClosed l => some l
  | _ => none

/-- The dispatch that takes the action. -/
def Action.dispatch? : Action → Option DispatchId
  | .startDispatch d _ | .sendDrained d | .sendFails d _ | .resumeDispatch d | .abortDispatch d
  | .connectionClosed d => some d
  | _ => none

namespace Master

def submittedTask (m : Master) (t : TaskId) (taskType : String) (payload : List (Key × Val)) : Master :=
  { m with scheduler :=
      { m.scheduler with tasks := m.tasks.insert t ⟨taskType, payload, .pending, none, 0⟩ } }

def startedTask (m : Master) (t : TaskId) : Master :=
  { m with scheduler := m.scheduler.setTaskStatus t .running }

/-- The state after a request was handled, with its reply being sent. -/
def answered (m : Master) (l : LinkId) (message response : Message) (ws : WorkerManager) (now : Time) :
    Master :=
  { m with
    scheduler := { m.scheduler with workers := ws }
    history := m.history ++ m.registrationEvents l message now }.setHandler l (.replying message response)

def condemnedStale (m : Master) (now : Time) : Master :=
  { m with scheduler := (m.scheduler.condemnStale heartbeatTimeout now).2 }

inductive Micro (m : Master) : Action → Master → Prop
  | skip (a : Action) : Micro m a m
  | submit {t : TaskId} {taskType : String} {payload : List (Key × Val)} : m.tasks.get? t = none →
      Micro m (.submitTask t taskType payload) (m.submittedTask t taskType payload)
  | accept : Micro m .accept { m with links := m.links ++ [Link.fresh] }
  | lose {a : Action} {l : LinkId} : a = .connectionLost l ∨ a = .stopCloses l → Micro m a (m.loseLink l)
  | cleanup {a : Action} {l : LinkId} {link : Link} : a.link? = some l → m.links[l]? = some link →
      m.handlerTurn l link a = some .ends → link.pc.ended = false → Micro m a (m.cleanup l link)
  | resolve {l : LinkId} {link : Link} {message : Message} {now : Time} {d : DispatchId} {t : TaskId}
      {k : LinkId} {w : WorkerId} {attempt : Nat} {drained : Bool} : m.links[l]? = some link →
      link.pending.get? message.requestId = some d →
      m.dispatches[d]? = some ⟨t, .sending k w attempt drained .waiting⟩ →
      Micro m (.receive l message now)
        (m.setDispatch d (.sending k w attempt drained (.message message)))
  | handle {l : LinkId} {link : Link} {message response : Message} {now : Time} {ws : WorkerManager} :
      m.links[l]? = some link → link.pc = .reading →
      (link.workerId = none ∨ m.isCurrentLink l link = true) →
      handleRequest m.workers message now = .ok (response, ws) →
      Micro m (.receive l message now) (m.answered l message response ws now)
  | install {l : LinkId} {link : Link} {w : WorkerId} : m.links[l]? = some link →
      link.pc.registering = some w → Micro m (.replySent l) (m.install l w)
  | handler {a : Action} {l : LinkId} {link : Link} {pc : HandlerPc} : a.link? = some l →
      m.links[l]? = some link → link.pc.registering = none → pc.quiet = true → pc.ended = link.pc.ended →
      Micro m a (m.setHandler l pc)
  | startRaises {a : Action} {d : DispatchId} {t : TaskId} : m.dispatches[d]? = some ⟨t, .spawned⟩ →
      (a = .abortDispatch d ∨
        (∃ depth, a = .startDispatch d depth) ∧ ∀ task, m.tasks.get? t = some task → task.status ≠ .assigned) →
      Micro m a (m.setDispatch d .raised)
  | orphan {d : DispatchId} {t : TaskId} {task : Task} {depth : Nat} : m.dispatches[d]? = some ⟨t, .spawned⟩ →
      m.tasks.get? t = some task → task.status = .assigned → task.assignedWorkerId = none →
      Micro m (.startDispatch d depth) ((m.startedTask t).setDispatch d .raised)
  | unreached {d : DispatchId} {t : TaskId} {task : Task} {w : WorkerId} {depth : Nat} :
      m.dispatches[d]? = some ⟨t, .spawned⟩ → m.tasks.get? t = some task → task.status = .assigned →
      task.assignedWorkerId = some w → m.connections.get? w = none →
      Micro m (.startDispatch d depth) ((m.startedTask t).unreachable d t w task.attempt "no connection")
  | unencodable {d : DispatchId} {t : TaskId} {task : Task} {w : WorkerId} {l : LinkId} {depth : Nat}
      {reason : String} :
      m.dispatches[d]? = some ⟨t, .spawned⟩ → m.tasks.get? t = some task → task.status = .assigned →
      task.assignedWorkerId = some w → m.connections.get? w = some l →
      encodeMessage depth (taskRequest t task) = .error (.protocolError reason) →
      Micro m (.startDispatch d depth)
        (((m.startedTask t).popPending l t task.attempt).unreachable d t w task.attempt reason)
  | overflow {d : DispatchId} {t : TaskId} {task : Task} {w : WorkerId} {l : LinkId} {depth : Nat} :
      m.dispatches[d]? = some ⟨t, .spawned⟩ → m.tasks.get? t = some task → task.status = .assigned →
      task.assignedWorkerId = some w → m.connections.get? w = some l →
      encodeMessage depth (taskRequest t task) = .error .recursionError →
      Micro m (.startDispatch d depth) (((m.startedTask t).popPending l t task.attempt).setDispatch d .raised)
  | write {d : DispatchId} {t : TaskId} {task : Task} {w : WorkerId} {l : LinkId} {depth : Nat} :
      m.dispatches[d]? = some ⟨t, .spawned⟩ → m.tasks.get? t = some task → task.status = .assigned →
      task.assignedWorkerId = some w → m.connections.get? w = some l →
      Micro m (.startDispatch d depth) ((m.startedTask t).writeTask d t task w l)
  | drained {d : DispatchId} {t : TaskId} {l : LinkId} {w : WorkerId} {attempt : Nat} {reply : Reply} :
      m.dispatches[d]? = some ⟨t, .sending l w attempt false reply⟩ →
      Micro m (.sendDrained d) (m.setDispatch d (.sending l w attempt true reply))
  | sendLost {d : DispatchId} {t : TaskId} {l : LinkId} {link : Link} {w : WorkerId} {attempt : Nat}
      {reply : Reply} {reason : String} :
      m.dispatches[d]? = some ⟨t, .sending l w attempt false reply⟩ → m.links[l]? = some link →
      link.lost = true → Micro m (.sendFails d reason)
        ((m.popPending l t attempt).unreachable d t w attempt reason)
  | replyLost {d : DispatchId} {t : TaskId} {l : LinkId} {w : WorkerId} {attempt : Nat} {reason : String} :
      m.dispatches[d]? = some ⟨t, .sending l w attempt true (.failed reason)⟩ →
      Micro m (.resumeDispatch d) ((m.popPending l t attempt).unreachable d t w attempt reason)
  | replied {d : DispatchId} {t : TaskId} {l : LinkId} {w : WorkerId} {attempt : Nat} {response : Message} :
      m.dispatches[d]? = some ⟨t, .sending l w attempt true (.message response)⟩ →
      Micro m (.resumeDispatch d) ((m.popPending l t attempt).handleReply d t w attempt response)
  | abort {d : DispatchId} {t : TaskId} {l : LinkId} {w : WorkerId} {attempt : Nat} {drained : Bool}
      {reply : Reply} : m.dispatches[d]? = some ⟨t, .sending l w attempt drained reply⟩ →
      Micro m (.abortDispatch d) ((m.popPending l t attempt).setDispatch d .raised)
  | finish {d : DispatchId} {t : TaskId} {w : WorkerId} {attempt : Nat} {response : Message} :
      m.dispatches[d]? = some ⟨t, .closing w attempt response⟩ →
      Micro m (.connectionClosed d) (m.finishDispatch d t response)
  | abandon {d : DispatchId} {t : TaskId} {w : WorkerId} {attempt : Nat} {response : Message} :
      m.dispatches[d]? = some ⟨t, .closing w attempt response⟩ →
      Micro m (.abortDispatch d) (m.setDispatch d .raised)
  | stale {i : Nat} {now : Time} : m.monitors[i]? = some .waiting →
      Micro m (.monitorTick i now) (m.condemnedStale now)
  | clear : Micro m .stopClears { m with connections := ∅ }

/-- Assignment and bookkeeping of the loops over the scheduler. -/
inductive Loop : Master → Master → Prop
  | grant {m : Master} {t : TaskId} {w : WorkerId} {task : Task} {worker : Worker} :
      m.tasks.get? t = some task → task.status = .pending → m.workers.get? w = some worker →
      worker.status = .idle → Loop m { m with scheduler := m.scheduler.grant t w }
  | spawn (m : Master) (batch : List TaskId) : Loop m (m.spawn batch)
  | loops (m : Master) (drains : List Drain) (monitors : List MonitorPc) (dispatcher : Bool) :
      Loop m { m with drains, monitors, dispatcher }

/-! ### Every step splits this way -/

variable {m m' : Master} {l : LinkId} {a : Action} {d : DispatchId} {t : TaskId} {w : WorkerId} {attempt : Nat}

theorem loop_of_batch {scope : Option (List TaskId)} {s s' : Scheduler} {batch : List TaskId}
    (made : Scheduler.Batch scope s batch s') (h : m.scheduler = s) :
    ReflTransGen Loop m { m with scheduler := s' } := by
  induction made generalizing m with
  | nil s => subst h; exact .refl
  | cons grants _ _ ih =>
    obtain ⟨w, task, worker, found, pending, known, idle, rfl⟩ := grants
    subst h
    exact (ReflTransGen.single (Loop.grant found pending known idle)).trans (ih rfl)

theorem loop_setDrain (m : Master) (i : DrainId) (f : Drain → Drain) :
    ReflTransGen Loop m (m.setDrain i f) :=
  .single (.loops m (m.drains.modify i f) m.monitors m.dispatcher)

theorem loop_drainRound (m : Master) (i : DrainId) (drain : Drain) (now : Time) :
    ReflTransGen Loop m (m.drainRound i drain now) := by
  simp only [drainRound]
  split
  · have assigned := loop_of_batch (m.scheduler.assignAll_batch drain.scope) (m := m) rfl
    exact (assigned.tail (.spawn _ _)).trans (loop_setDrain _ i _)
  · split
    · exact loop_setDrain m i _
    · split
      · exact loop_setDrain m i _
      · split
        · exact loop_setDrain m i _
        · split <;> exact loop_setDrain m i _

theorem loop_callDrain (m : Master) (scope : Option (List TaskId)) (timeout now : Time) :
    ReflTransGen Loop m (m.callDrain scope timeout now) :=
  (ReflTransGen.single (.loops m _ m.monitors m.dispatcher)).trans (loop_drainRound _ _ _ now)

theorem handlerTurn_goes {link : Link} (named : a.link? = some l) (found : m.links[l]? = some link)
    (turn : m.handlerTurn l link a = some (.goes m')) : Micro m a m' := by
  cases a with
  | receive k message now =>
    obtain rfl : k = l := Option.some.inj named
    simp only [handlerTurn] at turn
    split at turn
    · rename_i reading
      simp only [Option.some.injEq, handleMessage] at turn
      split at turn
      · cases turn
      · rename_i current
        split at turn
        · rename_i resolved
          cases turn
          unfold resolve at resolved
          split at resolved
          · cases resolved
          · rename_i d pending
            split at resolved
            · rename_i t k w attempt drained waiting
              cases resolved
              exact .resolve found pending waiting
            · cases resolved
        · split at turn
          · cases turn
          · rename_i response ws handled
            cases turn
            refine .handle found reading ?_ handled
            rcases own : link.workerId with _ | w
            · exact .inl rfl
            · right
              simpa [own] using current
    · cases turn
  | receiveInvalid k =>
    obtain rfl : k = l := Option.some.inj named
    simp only [handlerTurn] at turn
    split at turn
    · rename_i reading
      cases turn
      exact .handler rfl found (by simp [reading, HandlerPc.registering]) rfl (by rw [reading]; rfl)
    · cases turn
  | handlerRaises k =>
    simp only [handlerTurn] at turn
    split at turn <;> cases turn
  | replySent k =>
    obtain rfl : k = l := Option.some.inj named
    simp only [handlerTurn] at turn
    split at turn
    · rename_i rejecting
      cases turn
      exact .handler rfl found (by simp [rejecting, HandlerPc.registering]) rfl (by rw [rejecting]; rfl)
    · rename_i message response replying
      simp only [Option.some.injEq, afterReply] at turn
      split at turn
      · rename_i register
        split at turn
        · rename_i w named
          cases turn
          exact .install found (by simp [replying, HandlerPc.registering, register, named])
        · cases turn
      · rename_i other
        split at turn
        · cases turn
        · cases turn
          exact .handler rfl found (by simp [replying, HandlerPc.registering, other]) rfl (by rw [replying]; rfl)
    · cases turn
  | previousClosed k =>
    obtain rfl : k = l := Option.some.inj named
    simp only [handlerTurn] at turn
    split at turn
    · rename_i replacing
      cases turn
      exact .handler rfl found (by simp [replacing, HandlerPc.registering]) rfl (by rw [replacing]; rfl)
    · cases turn
  | handlerClosed k =>
    obtain rfl : k = l := Option.some.inj named
    simp only [handlerTurn] at turn
    split at turn
    · rename_i closing
      cases turn
      exact .handler rfl found (by simp [closing, HandlerPc.registering]) rfl (by rw [closing]; rfl)
    · cases turn
  | _ => cases named

/-- A handler leaves its loop only from a program counter inside it. -/
theorem handlerTurn_ends {link : Link} (turn : m.handlerTurn l link a = some .ends) : link.pc.ended = false := by
  cases a <;> simp only [handlerTurn] at turn <;> (try cases turn) <;> split at turn <;>
    (try cases turn) <;> simp_all [HandlerPc.ended]

theorem handler_split (named : a.link? = some l)
    (h : (m.links[l]?).bind (fun link => (m.handlerTurn l link a).map (m.takeTurn l link)) = some m') :
    Micro m a m' := by
  obtain ⟨link, found, taken⟩ := Option.bind_eq_some_iff.mp h
  obtain ⟨turn, took, rfl⟩ := Option.map_eq_some_iff.mp taken
  cases turn with
  | goes m' => exact handlerTurn_goes named found took
  | ends => exact .cleanup named found took (handlerTurn_ends took)

theorem beginDispatch_split {depth : Nat} (spawned : m.dispatches[d]? = some ⟨t, .spawned⟩) :
    Micro m (.startDispatch d depth) (m.beginDispatch d t depth) := by
  unfold beginDispatch
  split
  · rename_i task s found started
    obtain ⟨task', found', assigned, rfl⟩ := Scheduler.startTask_ok started
    obtain rfl : task = task' := Option.some.inj (found.symm.trans found')
    split
    · rename_i owner
      exact .orphan spawned found assigned owner
    · rename_i w owner
      split
      · rename_i absent
        exact .unreached spawned found assigned owner absent
      · rename_i l connected
        unfold sendTask
        split
        · rename_i reason failure
          exact .unencodable spawned found assigned owner connected failure
        · exact .overflow spawned found assigned owner connected ‹_›
        · exact .write spawned found assigned owner connected
  · rename_i notStarted
    refine .startRaises spawned (.inr ⟨⟨depth, rfl⟩, ?_⟩)
    intro task found assigned
    refine notStarted task (m.scheduler.setTaskStatus t .running) found ?_
    have inScheduler : m.scheduler.tasks.get? t = some task := found
    simp [Scheduler.startTask, inScheduler, assigned]

theorem dispatch_split
    (named : (∃ depth, a = .startDispatch d depth) ∨ a = .sendDrained d ∨ (∃ reason, a = .sendFails d reason) ∨
      a = .resumeDispatch d ∨ a = .abortDispatch d ∨ a = .connectionClosed d)
    (h : (m.dispatches[d]?).bind (fun dispatch => m.dispatchStep d dispatch a) = some m') :
    Micro m a m' := by
  obtain ⟨dispatch, found, h⟩ := Option.bind_eq_some_iff.mp h
  obtain ⟨t, pc⟩ := dispatch
  rcases named with ⟨depth, rfl⟩ | rfl | ⟨reason, rfl⟩ | rfl | rfl | rfl <;> simp only [dispatchStep] at h
  · split at h
    · cases h
      exact beginDispatch_split found
    · cases h
  · split at h
    · cases h
      exact .drained found
    · cases h
  · split at h
    · rename_i l w attempt reply
      split at h
      · rename_i lost
        cases h
        obtain ⟨link, linked, gone⟩ := (Option.any_eq_true ..).mp lost
        exact .sendLost found linked gone
      · cases h
    · cases h
  · split at h
    · cases h
      exact .replied found
    · cases h
      exact .replyLost found
    · cases h
  · split at h
    · cases h
      exact .startRaises found (.inl rfl)
    · cases h
      exact .abandon found
    · cases h
      exact .abort found
    · cases h
  · split at h
    · cases h
      exact .finish found
    · cases h

theorem submit_split (m : Master) (t : TaskId) (taskType : String) (payload : List (Key × Val)) :
    Micro m (.submitTask t taskType payload)
      { m with scheduler := (m.scheduler.submitTask t taskType payload).2 } := by
  simp only [Scheduler.submitTask]
  split
  · exact .skip _
  · split
    · exact .skip _
    · split
      · exact .skip _
      · rename_i _ _ absent
        exact .submit (by simpa [Dict.contains, Master.tasks] using absent)

theorem loop_assignAndDispatch {scope : Option (List TaskId)} (h : m.step (.assignAndDispatch scope) = some m') :
    ReflTransGen Loop m m' := by
  simp only [step] at h
  split at h
  · rename_i t s granted
    cases h
    obtain ⟨⟨w, task, worker, found, pending, known, idle, rfl⟩, _⟩ :=
      Scheduler.assignNextPendingTask_some granted
    exact (ReflTransGen.single (.grant found pending known idle)).tail (.spawn _ _)
  · cases h

theorem loop_resumeDrain {i : DrainId} {drain : Drain} (h : m.drainStep i drain a = some m') :
    ReflTransGen Loop m m' := by
  cases a with
  | resumeDrain _ now =>
    simp only [drainStep] at h
    split at h
    · rename_i batch _
      unfold gathered at h
      split at h
      · cases h
        exact loop_setDrain m i _
      · split at h
        · cases h
        · cases h
          exact (loop_setDrain m i _).trans (loop_drainRound _ i _ now)
    · cases h
      exact loop_drainRound m i drain now
    · cases h
  | abortDrain _ =>
    simp only [drainStep] at h
    split at h
    · cases h
      exact loop_setDrain m i _
    · cases h
      exact loop_setDrain m i _
    · cases h
  | _ => cases h

theorem loop_setMonitor (m : Master) (i : Nat) (pc : MonitorPc) :
    ReflTransGen Loop m (m.setMonitor i pc) :=
  .single (.loops m m.drains (m.monitors.set i pc) m.dispatcher)

/-- A tick condemns the stale workers and may then sweep. -/
theorem loop_monitorTick (m : Master) (i : Nat) (now : Time) :
    ReflTransGen Loop (m.condemnedStale now) (m.monitorTick i now) := by
  simp only [monitorTick]
  split
  · exact .refl
  · exact (loop_callDrain (m.condemnedStale now) none 30000 now).trans (loop_setMonitor _ i _)

theorem loop_resumeMonitor {i : Nat} {pc : MonitorPc} (h : m.monitorStep i pc (.resumeMonitor i) = some m') :
    ReflTransGen Loop m m' := by
  simp only [monitorStep] at h
  split at h
  · split at h
    · cases h
      exact loop_setMonitor m i _
    · cases h
      exact loop_setMonitor m i _
    · cases h
  · cases h

/-- The state in which an action begins to assign tasks. -/
def assigning (m : Master) : Action → Master
  | .monitorTick _ now => m.condemnedStale now
  | _ => m

/-- A step is one move, or work of the loops, which a monitor tick starts only
after condemning the stale workers. -/
theorem step_cases (h : m.step a = some m') :
    Micro m a m' ∨ (Micro m a (m.assigning a) ∧ ReflTransGen Loop (m.assigning a) m') := by
  cases a with
  | submitTask t taskType payload =>
    cases h
    exact .inl (submit_split m t taskType payload)
  | accept =>
    cases h
    exact .inl .accept
  | connectionLost l =>
    cases h
    exact .inl (.lose (.inl rfl))
  | receive l message now => exact .inl (handler_split rfl h)
  | receiveInvalid l => exact .inl (handler_split rfl h)
  | handlerRaises l => exact .inl (handler_split rfl h)
  | replySent l => exact .inl (handler_split rfl h)
  | previousClosed l => exact .inl (handler_split rfl h)
  | handlerClosed l => exact .inl (handler_split rfl h)
  | callDispatch t =>
    simp only [step] at h
    split at h
    · cases h
      exact .inr ⟨.skip _, .single (.spawn m [t])⟩
    · cases h
  | assignAndDispatch scope => exact .inr ⟨.skip _, loop_assignAndDispatch h⟩
  | startDispatch d => exact .inl (dispatch_split (by simp) h)
  | sendDrained d => exact .inl (dispatch_split (by simp) h)
  | sendFails d reason => exact .inl (dispatch_split (by simp) h)
  | resumeDispatch d => exact .inl (dispatch_split (by simp) h)
  | abortDispatch d => exact .inl (dispatch_split (by simp) h)
  | connectionClosed d => exact .inl (dispatch_split (by simp) h)
  | startDispatcher =>
    cases h
    exact .inr ⟨.skip _, .single (.loops m m.drains m.monitors true)⟩
  | stopDispatcher =>
    cases h
    exact .inr ⟨.skip _, .single (.loops m m.drains m.monitors false)⟩
  | dispatcherTick =>
    simp only [step] at h
    split at h
    · cases h
      have assigned := loop_of_batch (m.scheduler.assignAll_batch none) (m := m) rfl
      exact .inr ⟨.skip _, assigned.tail (.spawn _ _)⟩
    · cases h
  | callDrain scope timeout now =>
    cases h
    exact .inr ⟨.skip _, loop_callDrain m scope timeout now⟩
  | resumeDrain i now =>
    obtain ⟨drain, _, taken⟩ := Option.bind_eq_some_iff.mp h
    exact .inr ⟨.skip _, loop_resumeDrain taken⟩
  | abortDrain i =>
    obtain ⟨drain, _, taken⟩ := Option.bind_eq_some_iff.mp h
    exact .inr ⟨.skip _, loop_resumeDrain taken⟩
  | startMonitor =>
    cases h
    exact .inr ⟨.skip _, .single (.loops m m.drains (m.monitors ++ [MonitorPc.waiting]) m.dispatcher)⟩
  | monitorTick i now =>
    obtain ⟨pc, found, taken⟩ := Option.bind_eq_some_iff.mp h
    simp only [monitorStep] at taken
    split at taken
    · cases taken
      exact .inr ⟨.stale found, loop_monitorTick m i now⟩
    · cases taken
  | resumeMonitor i =>
    obtain ⟨pc, _, taken⟩ := Option.bind_eq_some_iff.mp h
    exact .inr ⟨.skip _, loop_resumeMonitor taken⟩
  | stopCloses l =>
    simp only [step] at h
    split at h
    · cases h
      exact .inl (.lose (.inr rfl))
    · cases h
  | stopClears =>
    cases h
    exact .inl .clear

/-- Every step is one move followed by work of the loops. -/
theorem step_split (h : m.step a = some m') :
    ∃ mid, Micro m a mid ∧ ReflTransGen Loop mid m' := by
  rcases step_cases h with move | ⟨move, loops⟩
  · exact ⟨m', move, .refl⟩
  · exact ⟨m.assigning a, move, loops⟩

/-- Actions of handlers and dispatches are moves without loop work. -/
theorem step_micro (own : a.link?.isSome = true ∨ a.dispatch?.isSome = true) (taken : m.step a = some m') :
    Micro m a m' := by
  cases a with
  | receive l _ _ => exact handler_split rfl taken
  | receiveInvalid l => exact handler_split rfl taken
  | handlerRaises l => exact handler_split rfl taken
  | replySent l => exact handler_split rfl taken
  | previousClosed l => exact handler_split rfl taken
  | handlerClosed l => exact handler_split rfl taken
  | startDispatch d => exact dispatch_split (by simp) taken
  | sendDrained d => exact dispatch_split (by simp) taken
  | sendFails d _ => exact dispatch_split (by simp) taken
  | resumeDispatch d => exact dispatch_split (by simp) taken
  | abortDispatch d => exact dispatch_split (by simp) taken
  | connectionClosed d => exact dispatch_split (by simp) taken
  | _ => simp [Action.link?, Action.dispatch?] at own

/-- The invariant rule for one step: the move keeps `I`, and so do the loops. -/
theorem step_preserves {I : Master → Prop} (taken : m.step a = some m') (move : ∀ mid, Micro m a mid → I mid)
    (loop : ∀ s s', Loop s s' → I s → I s') : I m' := by
  obtain ⟨mid, first, rest⟩ := step_split taken
  clear taken
  induction rest with
  | refl => exact move mid first
  | tail _ last ih => exact loop _ _ last ih

/-! ### The outcomes of a call that is back from its worker -/

def condemnedWorker (m : Master) (w : WorkerId) : Master :=
  { m with scheduler := m.scheduler.condemned w }

def finishedTask (m : Master) (t : TaskId) (w : WorkerId) (response : Message) : Master :=
  { m with scheduler :=
      (m.scheduler.setTaskStatus t (if response.isSuccess then .completed else .failed)).released w }

/-- How the branch of an unreachable worker ends. -/
inductive Unreached (m : Master) (d : DispatchId) (t : TaskId) (w : WorkerId) (attempt : Nat)
    (response : Message) : Master → Prop
  | late : m.isCurrentAttempt t w attempt = false →
      Unreached m d t w attempt response (m.setDispatch d (.returned response))
  | unknown : m.isCurrentAttempt t w attempt = true → m.workers.contains w = false →
      Unreached m d t w attempt response (m.setDispatch d .raised)
  | condemned : m.isCurrentAttempt t w attempt = true → m.workers.contains w = true →
      Unreached m d t w attempt response
        (((m.condemnedWorker w).recordIfTerminal t response).setDispatch d (.returned response))

/-- How the branch of a reply ends. -/
inductive Settled (m : Master) (d : DispatchId) (t : TaskId) (w : WorkerId) (attempt : Nat)
    (response : Message) : Master → Prop
  | late : m.isCurrentAttempt t w attempt = false →
      Settled m d t w attempt response (m.setDispatch d (.returned response))
  | malformed : Settled m d t w attempt response (m.setDispatch d .raised)
  | unknown (status : TaskStatus) : m.isCurrentAttempt t w attempt = true →
      m.workers.contains w = false → status.terminal = true → Settled m d t w attempt response
        ({ m with scheduler := m.scheduler.setTaskStatus t status }.setDispatch d .raised)
  | settled : m.isCurrentAttempt t w attempt = true → m.workers.contains w = true →
      Settled m d t w attempt response
        ((m.finishedTask t w response).closeIfDraining d t w attempt response)

theorem isCurrentAttempt_iff :
    m.isCurrentAttempt t w attempt = true ↔ ∃ task, m.tasks.get? t = some task ∧
      task.assignedWorkerId = some w ∧ task.attempt = attempt := by
  unfold isCurrentAttempt
  cases m.tasks.get? t <;> simp

theorem unreachable_outcome (m : Master) (d : DispatchId) (t : TaskId) (w : WorkerId) (attempt : Nat)
    (reason : String) :
    Unreached m d t w attempt (workerUnreachable t attempt reason)
      (m.unreachable d t w attempt reason) := by
  unfold unreachable
  cases current : m.isCurrentAttempt t w attempt with
  | false => exact .late current
  | true =>
    cases known : m.workers.contains w with
    | true =>
      simp only [if_true, Scheduler.condemn_of_known known]
      exact .condemned current known
    | false =>
      have refused : m.scheduler.condemn w =
          (.error (.workerNotFound s!"Unknown worker: {w}"), m.scheduler) := by
        simp [Scheduler.condemn, Scheduler.updateWorkerStatus, WorkerManager.updateStatus, known]
      simp only [if_true, refused]
      exact .unknown current known

theorem settled_fail {response : Message} (current : m.isCurrentAttempt t w attempt = true)
    (failure : response.isSuccess = false) :
    Settled m d t w attempt response (m.settled d t w attempt response (m.scheduler.failTask t)) := by
  obtain ⟨task, found, owner, _⟩ := isCurrentAttempt_iff.mp current
  cases known : m.workers.contains w with
  | true =>
    rw [Scheduler.failTask_of_known found owner known]
    have outcome : Settled m d t w attempt response _ := .settled current known
    simp only [finishedTask, failure] at outcome
    exact outcome
  | false =>
    have refused := Scheduler.failTask_of_unknown found owner known
    rw [refused]
    exact .unknown .failed current known rfl

theorem settled_complete {response : Message} (current : m.isCurrentAttempt t w attempt = true)
    (success : response.isSuccess = true) :
    Settled m d t w attempt response (m.settled d t w attempt response (m.scheduler.completeTask t)) := by
  obtain ⟨task, found, owner, _⟩ := isCurrentAttempt_iff.mp current
  cases running : task.status.inFlight with
  | false =>
    rw [Scheduler.completeTask_of_idle found running]
    exact .malformed
  | true =>
    cases known : m.workers.contains w with
    | true =>
      rw [Scheduler.completeTask_of_known found running owner known]
      have outcome : Settled m d t w attempt response _ := .settled current known
      simp only [finishedTask, success, if_true] at outcome
      exact outcome
    | false =>
      rw [Scheduler.completeTask_of_unknown found running owner known]
      exact .unknown .completed current known rfl

theorem handleReply_outcome (m : Master) (d : DispatchId) (t : TaskId) (w : WorkerId) (attempt : Nat)
    (response : Message) :
    Settled m d t w attempt response (m.handleReply d t w attempt response) := by
  unfold handleReply
  cases current : m.isCurrentAttempt t w attempt with
  | false => exact .late current
  | true =>
    simp only [if_true]
    split
    · rename_i other
      exact settled_fail current (by simp [Message.isSuccess, other])
    · rename_i result
      have isResult : response.type = .taskResult := by simpa using result
      split
      · exact .malformed
      · rename_i status found
        split
        · rename_i success
          exact settled_complete current (by simp [Message.isSuccess, isResult, found, success])
        · rename_i failure
          exact settled_fail current (by simp [Message.isSuccess, found, failure])
      · rename_i value other found
        refine settled_fail current ?_
        simp only [Message.isSuccess, found]
        cases value <;> simp_all

end Master
end DistributedCompute
