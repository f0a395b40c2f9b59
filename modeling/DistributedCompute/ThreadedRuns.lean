import DistributedCompute.ThreadFence

/-! Every interleaving of the threaded master, with any number of callers of
`drain_pending_tasks` and `submit_and_dispatch_task` at the same time. -/
namespace DistributedCompute
open Py Relation Transition

/-! ### What a thread does -/

namespace ThreadedMaster
variable {floatRepr : BitVec 64 → String} {m m' : ThreadedMaster} {d : ThreadId} {thread : DispatchThread}
  {a : ThreadedAction}

inductive Turn (floatRepr : BitVec 64 → String) (m : ThreadedMaster) (d : ThreadId) (thread : DispatchThread) :
    ThreadedMaster → Prop
  | looks {task : Task} {w : WorkerId} {c : ConnId} : thread.pc = .entered →
      m.tasks.get? thread.task = some task → task.assignedWorkerId = some w → m.connections.get? w = some c →
      Turn floatRepr m d thread (m.setThread d (.looked c))
  | unknown {task : Task} : thread.pc = .entered → m.tasks.get? thread.task = some task →
      task.assignedWorkerId.bind m.connections.get? = none → Turn floatRepr m d thread (m.setThread d .raised)
  | owns {task : Task} {c : ConnId} : thread.pc = .looked c → m.tasks.get? thread.task = some task →
      Turn floatRepr m d thread (m.setThread d (.owned c task.assignedWorkerId))
  | captures {task : Task} {c : ConnId} {w : Option WorkerId} : thread.pc = .owned c w →
      m.tasks.get? thread.task = some task →
      Turn floatRepr m d thread (m.setThread d (.captured ⟨c, w, task.attempt⟩))
  | starts {task : Task} {locals : Capture} : thread.pc = .captured locals → m.tasks.get? thread.task = some task →
      task.status = .assigned → Turn floatRepr m d thread (m.startTask d thread.task task locals)
  | refused {task : Task} {locals : Capture} : thread.pc = .captured locals →
      m.tasks.get? thread.task = some task → task.status ≠ .assigned →
      Turn floatRepr m d thread (m.setThread d .raised)
  | unsent {task : Task} {locals : Capture} {depth : Nat} {reason : String} : thread.pc = .sending locals →
      m.tasks.get? thread.task = some task →
      encodeMessage depth (dispatchRequest thread.task task locals.attempt) = .error (.protocolError reason) →
      Turn floatRepr m d thread (m.setThread d (.unreachable locals reason))
  | overflows {task : Task} {locals : Capture} {depth : Nat} : thread.pc = .sending locals →
      m.tasks.get? thread.task = some task →
      encodeMessage depth (dispatchRequest thread.task task locals.attempt) = .error .recursionError →
      Turn floatRepr m d thread (m.setThread d (.overflowed depth))
  | sends {task : Task} {locals : Capture} {depth : Nat} : thread.pc = .sending locals →
      m.tasks.get? thread.task = some task →
      encodeMessage depth (dispatchRequest thread.task task locals.attempt) =
        .ok (dispatchRequest thread.task task locals.attempt) →
      Turn floatRepr m d thread
        ((m.write floatRepr locals.conn (dispatchRequest thread.task task locals.attempt)).setThread d
          (.receiving locals))
  | cut {session : Session} {locals : Capture} {reason : String} : thread.pc = .sending locals →
      m.sessions[locals.conn]? = some session → session.lost = true →
      Turn floatRepr m d thread (m.setThread d (.unreachable locals reason))
  | receives {session : Session} {locals : Capture} {depth : Nat} {document : Json} {rest : List Json} :
      thread.pc = .receiving locals → m.sessions[locals.conn]? = some session →
      session.peer.outbox = document :: rest →
      Turn floatRepr m d thread ((m.popped locals.conn rest).setThread d (.received locals depth document))
  | closed {session : Session} {locals : Capture} {reason : String} : thread.pc = .receiving locals →
      m.sessions[locals.conn]? = some session → session.lost = true → session.peer.outbox = [] →
      Turn floatRepr m d thread (m.setThread d (.unreachable locals reason))
  | mixed {session : Session} {locals : Capture} {outcome : Option (Except String Message)} :
      thread.pc = .receiving locals → m.sessions[locals.conn]? = some session →
      (session.garbled || m.shared d locals.conn) = true →
      Turn floatRepr m d thread
        ((m.setSession locals.conn (fun session => { session with garbled := true })).setThread d
          (.garbled locals outcome))
  | ignored {locals : Capture} {response : Message} : thread.pc = .answered locals response →
      m.isCurrentAttempt thread.task locals = false → Turn floatRepr m d thread (m.setThread d (.returned response))
  | malformed {locals : Capture} {response : Message} : thread.pc = .answered locals response →
      response.type = .taskResult → response.get? "status" = none → Turn floatRepr m d thread (m.setThread d .raised)
  | uncompleted {task : Task} {locals : Capture} {response : Message} : thread.pc = .answered locals response →
      m.tasks.get? thread.task = some task → task.assignedWorkerId = locals.workerId →
      task.status.inFlight = false → Turn floatRepr m d thread (m.setThread d .raised)
  | finishes {task : Task} {locals : Capture} {response : Message} {w : WorkerId} :
      thread.pc = .answered locals response → m.tasks.get? thread.task = some task → task.status = .running →
      task.assignedWorkerId = some w → locals.workerId = some w → thread.claim = some task.attempt →
      Turn floatRepr m d thread ({ m with
        scheduler := (m.scheduler.setTaskStatus thread.task
          (if response.isSuccess then .completed else .failed)).released w }.setThread d (.returned response))
  | abandons {task : Task} {locals : Capture} {response : Message} : thread.pc = .answered locals response →
      m.tasks.get? thread.task = some task → task.status.inFlight = false → task.assignedWorkerId = none →
      locals.workerId = none → thread.claim = some task.attempt → response.isSuccess = false →
      Turn floatRepr m d thread ({ m with scheduler := m.scheduler.setTaskStatus thread.task .failed }.setThread d
        (.returned response))
  | forgotten {locals : Capture} {reason : String} : thread.pc = .unreachable locals reason →
      m.isCurrentAttempt thread.task locals = false →
      Turn floatRepr m d thread (m.setThread d (.returned (dispatchUnreachable thread.task reason)))
  | unowned {locals : Capture} {reason : String} : thread.pc = .unreachable locals reason →
      locals.workerId = none → Turn floatRepr m d thread (m.setThread d .raised)
  | condemns {task : Task} {locals : Capture} {reason : String} {w : WorkerId} :
      thread.pc = .unreachable locals reason → m.tasks.get? thread.task = some task → task.status = .running →
      task.assignedWorkerId = some w → locals.workerId = some w →
      Turn floatRepr m d thread ({ m with scheduler := m.scheduler.condemned w }.setThread d
        (.returned (dispatchUnreachable thread.task reason)))

variable {task : Task} {locals : Capture}

theorem startTask_accepted {t : TaskId} (found : m.tasks.get? t = some task) (assigned : task.status = .assigned) :
    m.startTask d t task locals = { m with
      scheduler := m.scheduler.setTaskStatus t .running
      threads := m.threads.modify d
        (fun thread => { thread with claim := some task.attempt, pc := .sending locals }) } := by
  simp only [startTask, Scheduler.startTask, found, assigned, ne_eq, not_true_eq_false, if_false]

theorem startTask_refused {t : TaskId} (found : m.tasks.get? t = some task) (notAssigned : task.status ≠ .assigned) :
    m.startTask d t task locals = m.setThread d .raised := by
  simp only [startTask, Scheduler.startTask, found, notAssigned, ne_eq, not_false_eq_true, if_true]

def Fenced (m : ThreadedMaster) : Prop := Ledger.Fenced m.scheduler m.threads

theorem conclude_ok (m : ThreadedMaster) (d : ThreadId) (response : Message) (s : Scheduler) :
    m.conclude d response (.ok (), s) = { m with scheduler := s }.setThread d (.returned response) := rfl

section Settling
variable {task : Task} {locals : Capture} (fenced : m.Fenced) (here : m.threads[d]? = some thread)
  (found : m.tasks.get? thread.task = some task)
variable {response : Message}
include fenced here found

/-- What a thread knows of the current attempt: it has claimed it, and if there is a worker
the task is RUNNING on it. -/
theorem current_of_working (works : thread.pc.working? = some locals)
    (current : m.isCurrentAttempt thread.task locals = true) :
    task.assignedWorkerId = locals.workerId ∧ thread.claim = some task.attempt ∧
      (task.assignedWorkerId = none ∨ task.status = .running) := by
  simp only [isCurrentAttempt, found, Bool.and_eq_true, decide_eq_true_eq] at current
  obtain ⟨task', found', sound⟩ := fenced.sound d thread here
  obtain rfl := Option.some.inj (found.symm.trans found')
  obtain ⟨mine, _, running⟩ := sound.current works current.2
  exact ⟨current.1, mine, running⟩

theorem turn_of_fail (pc : thread.pc = .answered locals response)
    (current : m.isCurrentAttempt thread.task locals = true) (bad : response.isSuccess = false) :
    Turn floatRepr m d thread (m.conclude d response (m.scheduler.failTask thread.task)) := by
  obtain ⟨captured, mine, running⟩ := current_of_working fenced here found (by rw [pc]; rfl) current
  cases owner : task.assignedWorkerId with
  | none =>
    -- a task without a worker is not in flight
    have idle : task.status.inFlight = false := by
      by_contra flying
      have := ((fenced.records _ task found).held (by simpa using flying)).1
      simp [owner] at this
    have failed : m.scheduler.failTask thread.task = (.ok (), m.scheduler.setTaskStatus thread.task .failed) := by
      simp only [Scheduler.failTask, found, owner, Scheduler.releaseWorker]
    rw [failed, conclude_ok]
    exact .abandons pc found idle owner (captured.symm.trans owner) mine bad
  | some w =>
    have runs : task.status = .running := running.resolve_left (by simp [owner])
    rw [Scheduler.failTask_of_known found owner ((fenced.records _ task found).known w owner), conclude_ok]
    have turn : Turn floatRepr m d thread _ := .finishes pc found runs owner (captured.symm.trans owner) mine
    rw [bad] at turn
    exact turn

theorem turn_of_complete (pc : thread.pc = .answered locals response)
    (current : m.isCurrentAttempt thread.task locals = true) (good : response.isSuccess = true) :
    Turn floatRepr m d thread (m.conclude d response (m.scheduler.completeTask thread.task)) := by
  obtain ⟨captured, mine, running⟩ := current_of_working fenced here found (by rw [pc]; rfl) current
  by_cases flying : task.status.inFlight = true
  · obtain ⟨w, owner⟩ := Option.isSome_iff_exists.mp ((fenced.records _ task found).held flying).1
    have runs : task.status = .running := running.resolve_left (by simp [owner])
    rw [Scheduler.completeTask_of_known found flying owner ((fenced.records _ task found).known w owner), conclude_ok]
    have turn : Turn floatRepr m d thread _ := .finishes pc found runs owner (captured.symm.trans owner) mine
    rw [good] at turn
    exact turn
  · rw [Scheduler.completeTask_of_idle found (by simpa using flying)]
    exact .uncompleted pc found captured (by simpa using flying)

theorem turn_of_settle (pc : thread.pc = .answered locals response) :
    Turn floatRepr m d thread (m.settle d thread.task locals response) := by
  unfold settle
  split
  · exact .ignored pc ‹_›
  · rename_i current
    have current : m.isCurrentAttempt thread.task locals = true := by simpa using current
    split
    · rename_i other
      exact turn_of_fail fenced here found pc current (by simp [Message.isSuccess, other])
    · rename_i isResult
      have isResult : response.type = .taskResult := by simpa using isResult
      split
      · exact .malformed pc isResult ‹_›
      · rename_i status given
        split
        · exact turn_of_complete fenced here found pc current (by simp [Message.isSuccess, isResult, given])
        · rename_i other
          refine turn_of_fail fenced here found pc current ?_
          rw [Message.isSuccess, given, Bool.and_eq_false_iff]
          refine .inr ?_
          split
          · rename_i text
            simp_all
          · rfl

theorem turn_of_recover {reason : String} (pc : thread.pc = .unreachable locals reason) :
    Turn floatRepr m d thread (m.recover d thread.task locals reason) := by
  unfold recover
  simp only
  split
  · exact .forgotten pc ‹_›
  · rename_i current
    split
    · exact .unowned pc ‹_›
    · rename_i w captured
      obtain ⟨owner, _, running⟩ := current_of_working fenced here found (by rw [pc]; rfl) (by simpa using current)
      rw [captured] at owner
      rw [Scheduler.condemn_of_known ((fenced.records _ task found).known w owner), conclude_ok]
      exact .condemns pc found (running.resolve_left (by simp [owner])) owner captured

end Settling

theorem turn_of_advance (fenced : m.Fenced) (here : m.threads[d]? = some thread)
    (found : m.tasks.get? thread.task = some task) (taken : m.advance d thread task = some m') :
    Turn floatRepr m d thread m' := by
  unfold advance at taken
  split at taken
  · rename_i pc
    split at taken <;> cases taken
    · rename_i c known
      obtain ⟨w, owner, entry⟩ := Option.bind_eq_some_iff.mp known
      exact .looks pc found owner entry
    · exact .unknown pc found ‹_›
  · cases taken
    exact .owns ‹_› found
  · cases taken
    exact .captures ‹_› found
  · rename_i locals pc
    cases taken
    by_cases assigned : task.status = .assigned
    · exact .starts pc found assigned
    · rw [startTask_refused found assigned]
      exact .refused pc found assigned
  · cases taken
    exact turn_of_settle fenced here found ‹_›
  · cases taken
    exact turn_of_recover fenced here found ‹_›
  all_goals cases taken

theorem turn_of_send {depth : Nat} (pc : thread.pc = .sending locals) (found : m.tasks.get? thread.task = some task) :
    Turn floatRepr m d thread (m.send floatRepr d depth thread.task task locals) := by
  unfold send
  split
  · exact .unsent pc found ‹_›
  · exact .overflows pc found ‹_›
  · rename_i request encoded
    obtain rfl := eq_of_encodeMessage encoded
    exact .sends pc found encoded

theorem turn_of_threadStep (fenced : m.Fenced) (here : m.threads[d]? = some thread)
    (taken : m.threadStep floatRepr d thread a = some m') : Turn floatRepr m d thread m' := by
  unfold threadStep at taken
  split at taken
  · obtain ⟨task, found, advanced⟩ := Option.bind_eq_some_iff.mp taken
    exact turn_of_advance fenced here found advanced
  · split at taken
    · obtain ⟨task, found, rfl⟩ := Option.map_eq_some_iff.mp taken
      exact turn_of_send ‹_› found
    · cases taken
  · split at taken
    · obtain ⟨session, there, cut⟩ := Option.bind_eq_some_iff.mp taken
      split at cut <;> cases cut
      exact .cut ‹_› there ‹_›
    · cases taken
  · split at taken
    · rename_i locals pc
      obtain ⟨session, there, got⟩ := Option.bind_eq_some_iff.mp taken
      unfold receive at got
      split at got
      · rename_i document rest waiting
        cases got
        exact .receives pc there waiting
      · cases got
    · cases taken
  · split at taken
    · obtain ⟨session, there, closed⟩ := Option.bind_eq_some_iff.mp taken
      split at closed
      · rename_i gone
        cases closed
        rw [Bool.and_eq_true, List.isEmpty_iff] at gone
        exact .closed ‹_› there gone.1 gone.2
      · cases closed
    · cases taken
  · split at taken
    · obtain ⟨session, there, got⟩ := Option.bind_eq_some_iff.mp taken
      unfold receiveGarbled at got
      split at got <;> cases got
      exact .mixed ‹_› there ‹_›
    · cases taken
  · cases taken

end ThreadedMaster

/-! ### Every step is a sequence of changes -/

namespace ThreadedMaster
variable {floatRepr : BitVec 64 → String} {m m' : ThreadedMaster} {d : ThreadId} {thread : DispatchThread}
  {a : ThreadedAction}

def ledger (m : ThreadedMaster) : Ledger := (m.scheduler, m.threads)

theorem threads_modify (here : m.threads[d]? = some thread) (f : DispatchThread → DispatchThread) :
    m.threads.modify d f = m.threads.set d (f thread) := by
  rw [List.modify_eq_set_getElem?, here]
  rfl

/-- Thread `d` has taken a step and is now `thread'`. -/
structure Stepped (m : ThreadedMaster) (d : ThreadId) (thread : DispatchThread) (m' : ThreadedMaster)
    (thread' : DispatchThread) : Prop where
  progress : Progress m.scheduler thread m'.scheduler thread'
  threads : m'.threads = m.threads.set d thread'

theorem stepped_setThread {pc : ThreadPc} (here : m.threads[d]? = some thread) (m' : ThreadedMaster)
    (same : m'.threads = m.threads) (progress : Progress m.scheduler thread m'.scheduler { thread with pc }) :
    Stepped m d thread (m'.setThread d pc) { thread with pc } :=
  ⟨progress, (threads_modify (m := m') (same ▸ here) _).trans (congrArg (List.set · d _) same)⟩

theorem Turn.stepped (here : m.threads[d]? = some thread) (turn : Turn floatRepr m d thread m') :
    ∃ thread', Stepped m d thread m' thread' := by
  cases turn with
  | looks pc _ _ _ | owns pc _ =>
    exact ⟨_, stepped_setThread here m rfl
      (.begins (by rw [pc]; rfl) rfl fun _ other => ThreadPc.noConfusion other)⟩
  | @captures task c w pc found =>
    refine ⟨_, stepped_setThread here m rfl
      (.begins (by rw [pc]; rfl) rfl fun locals captured => ⟨task, found, ?_⟩)⟩
    cases captured
    rfl
  | unknown pc _ _ | refused pc _ _ | overflows pc _ _ | ignored pc _ | malformed pc _ _ | uncompleted pc _ _ _
  | forgotten pc _ | unowned pc _ =>
    exact ⟨_, stepped_setThread here m rfl (.ends (by rw [DispatchThread.finished, pc]) rfl rfl)⟩
  | @starts task locals pc found assigned =>
    refine ⟨{ thread with claim := some task.attempt, pc := .sending locals }, ?_⟩
    rw [startTask_accepted found assigned]
    exact ⟨.starts pc found assigned, threads_modify here _⟩
  | unsent pc _ _ | cut pc _ _ | closed pc _ _ _ =>
    exact ⟨_, stepped_setThread here m rfl (.works (by rw [pc]; rfl) rfl)⟩
  | sends pc _ _ =>
    exact ⟨_, stepped_setThread here (m.write ..) rfl (.works (by rw [pc]; rfl) rfl)⟩
  | @receives session locals depth document rest pc _ _ =>
    have ends (pc' : ThreadPc) (notBegins : pc'.begins = false) (notWorks : pc'.working? = none) :
        Progress m.scheduler thread m.scheduler { thread with pc := pc' } :=
      .ends (by rw [DispatchThread.finished, pc]) notBegins notWorks
    refine ⟨_, stepped_setThread here (m.popped ..) rfl ?_⟩
    unfold ThreadPc.received
    split
    · exact ends _ rfl rfl
    · split
      · exact .works (by rw [pc]; rfl) rfl
      · exact .works (by rw [pc]; rfl) rfl
      · exact ends _ rfl rfl
  | @mixed session locals outcome pc _ _ =>
    refine ⟨_, stepped_setThread here (m.setSession ..) rfl ?_⟩
    unfold ThreadPc.garbled
    split
    · exact .works (by rw [pc]; rfl) rfl
    · exact .works (by rw [pc]; rfl) rfl
    · exact .ends (by rw [DispatchThread.finished, pc]) rfl rfl
  | finishes pc found running owner _ mine =>
    exact ⟨_, stepped_setThread here { m with scheduler := _ } rfl
      (.finishes (by rw [DispatchThread.finished, pc]) found running owner mine)⟩
  | abandons pc found idle owner _ mine bad =>
    exact ⟨_, stepped_setThread here { m with scheduler := _ } rfl
      (.abandons (by rw [DispatchThread.finished, pc]) found idle owner mine bad)⟩
  | condemns pc found running owner _ =>
    exact ⟨_, stepped_setThread here { m with scheduler := _ } rfl
      (.condemns (by rw [DispatchThread.finished, pc]) found running owner)⟩

theorem Turn.change (here : m.threads[d]? = some thread) (turn : Turn floatRepr m d thread m') :
    Ledger.Change m.ledger m'.ledger := by
  obtain ⟨thread', progress, threads⟩ := turn.stepped here
  have after : m'.ledger = (m'.scheduler, m.threads.set d thread') := congrArg (Prod.mk _) threads
  rw [after]
  exact .turn here progress

/-- The threads of a batch, one assignment after the other. -/
theorem changes_of_batch {s s' : Scheduler} {batch : List TaskId} {scope : Option (List TaskId)}
    (made : Scheduler.Batch scope s batch s') (ts : List DispatchThread) :
    ReflTransGen Ledger.Change (s, ts) (s', ts ++ batch.map .start) := by
  induction made generalizing ts with
  | nil s =>
    rw [List.map_nil, List.append_nil]
  | @cons s mid s' t rest grants _ _ ih =>
    have later := ih (ts ++ [.start t])
    rw [List.append_assoc] at later
    exact ReflTransGen.head (.assign grants) later

theorem changes_of_handled {s : Scheduler} {ts : List DispatchThread} {message response : Message} {now : Time}
    {ws : WorkerManager} (handled : handleRequest s.workers message now = .ok (response, ws)) :
    ReflTransGen Ledger.Change (s, ts) ({ s with workers := ws }, ts) :=
  .single (.request (handleRequest_handled handled))

theorem ledger_afterReply (m : ThreadedMaster) (c : ConnId) (request response : Message) :
    (m.afterReply c request response).ledger = m.ledger := by
  unfold afterReply
  split <;> rfl

theorem changes_of_serve {c : ConnId} {session : Session} {now : Time} {delivered : Bool}
    (taken : m.serve floatRepr c session now delivered = some m') :
    ReflTransGen Ledger.Change m.ledger m'.ledger := by
  unfold serve at taken
  split at taken
  · simp only at taken
    split at taken
    · cases taken
      split <;> exact .refl
    · cases taken
      exact .refl
    · split at taken
      · cases taken
        exact .refl
      · rename_i handled
        cases taken
        split
        · rw [ledger_afterReply]
          exact changes_of_handled handled
        · exact changes_of_handled handled
  · cases taken

theorem changes_of_submit (s : Scheduler) (ts : List DispatchThread) (t : TaskId) (taskType : String)
    (payload : List (Key × Val)) :
    ReflTransGen Ledger.Change (s, ts) ((s.submitTask t taskType payload).2, ts) := by
  rcases s.submitTask_cases t taskType payload with ⟨e, refused⟩ | ⟨absent, task, accepted⟩
  · rw [refused]
  · rw [accepted]
    exact .single (.submit absent)

theorem changes_of_submitAndDispatch (m : ThreadedMaster) (t : TaskId) (taskType : String)
    (payload : List (Key × Val)) :
    ReflTransGen Ledger.Change m.ledger (m.submitAndDispatchTask t taskType payload).ledger := by
  have submits := changes_of_submit m.scheduler m.threads t taskType payload
  unfold submitAndDispatchTask
  split
  · rename_i made
    rw [made] at submits
    exact submits
  · rename_i made
    rw [made] at submits
    split
    · rename_i granted
      exact submits.tail (.assign (Scheduler.assignNextPendingTask_some granted).1)
    · rename_i refused
      rw [Scheduler.assignNextPendingTask_none refused]
      exact submits

theorem changes_of_round {i : Nat} {drain : ThreadedDrain} (taken : m.drainRound i drain = some m') :
    ReflTransGen Ledger.Change m.ledger m'.ledger := by
  unfold drainRound at taken
  split at taken
  · simp only at taken
    split at taken <;> cases taken
    · exact .refl
    · exact changes_of_batch (m.scheduler.assignAll_batch none) m.threads
  · cases taken

/-- What a step can be. -/
inductive Occurs (floatRepr : BitVec 64 → String) (m : ThreadedMaster) : ThreadedAction → ThreadedMaster → Prop
  | connects (runtime : Runtime) (workerId : WorkerId) (host : String) (port : Int) :
      Occurs floatRepr m (.connect runtime workerId host port) { m with
        sessions := m.sessions ++ [⟨Peer.fresh runtime workerId host port, .registering, false, false⟩] }
  | acts {c : ConnId} {act : PeerAction} {session : Session} {peer : Peer} : act.blocking = true →
      m.sessions[c]? = some session → session.peer.act floatRepr act = some peer →
      Occurs floatRepr m (.worker c act) (m.setSession c (fun session => session.acted peer))
  | loses {c : ConnId} {session : Session} (arrived : Nat) : m.sessions[c]? = some session →
      Occurs floatRepr m (.lose c arrived) (m.setSession c (fun session => session.cut arrived))
  | serves {c : ConnId} {session : Session} {now : Time} {delivered : Bool} {m' : ThreadedMaster} :
      m.sessions[c]? = some session → m.serve floatRepr c session now delivered = some m' →
      Occurs floatRepr m (.serve c now delivered) m'
  | breaks {c : ConnId} {session : Session} : m.sessions[c]? = some session → session.phase = .registering →
      Occurs floatRepr m (.serveFails c) (m.setPhase c .raised)
  | enlists {c : ConnId} {session : Session} {w : WorkerId} : m.sessions[c]? = some session →
      session.phase = .acknowledged w → Occurs floatRepr m (.enlist c)
        { m.setPhase c (.enlisted w) with connections := m.connections.insert w c }
  | handles {message response : Message} {now : Time} {ws : WorkerManager} :
      handleRequest m.workers message now = .ok (response, ws) →
      Occurs floatRepr m (.request message now) (m.setWorkers ws)
  | rejects (message : Message) (now : Time) : Occurs floatRepr m (.request message now) m
  | ticks (now : Time) : Occurs floatRepr m (.monitorTick now)
      { m with scheduler := (m.scheduler.condemnStale heartbeatTimeout now).2 }
  | submits (t : TaskId) (taskType : String) (payload : List (Key × Val)) :
      Occurs floatRepr m (.submitTask t taskType payload)
        { m with scheduler := (m.scheduler.submitTask t taskType payload).2 }
  | dispatches (t : TaskId) (taskType : String) (payload : List (Key × Val)) :
      Occurs floatRepr m (.submitAndDispatchTask t taskType payload) (m.submitAndDispatchTask t taskType payload)
  | calls : Occurs floatRepr m .callDrain { m with drains := m.drains ++ [⟨[], .looping⟩] }
  | rounds {i : Nat} {drain : ThreadedDrain} {m' : ThreadedMaster} : m.drains[i]? = some drain →
      m.drainRound i drain = some m' → Occurs floatRepr m (.drainRound i) m'
  | joins {i : Nat} {drain drain' : ThreadedDrain} : m.drains[i]? = some drain →
      m.drainJoins i drain = some (m.setDrain i drain') → Occurs floatRepr m (.drainJoins i) (m.setDrain i drain')
  | turns {a : ThreadedAction} {d : ThreadId} {thread : DispatchThread} {m' : ThreadedMaster} :
      m.threads[d]? = some thread → Turn floatRepr m d thread m' → Occurs floatRepr m a m'

theorem occurs_of_step (fenced : m.Fenced) (taken : m.step floatRepr a = some m') : Occurs floatRepr m a m' := by
  unfold step at taken
  split at taken
  · cases taken
    exact .connects ..
  · split at taken
    · obtain ⟨session, here, acted⟩ := Option.bind_eq_some_iff.mp taken
      obtain ⟨peer, does, rfl⟩ := Option.map_eq_some_iff.mp acted
      exact .acts ‹_› here does
    · cases taken
  · obtain ⟨session, here, rfl⟩ := Option.map_eq_some_iff.mp taken
    exact .loses _ here
  · obtain ⟨session, here, served⟩ := Option.bind_eq_some_iff.mp taken
    exact .serves here served
  · obtain ⟨session, here, failed⟩ := Option.bind_eq_some_iff.mp taken
    split at failed <;> cases failed
    exact .breaks here ‹_›
  · obtain ⟨session, here, listed⟩ := Option.bind_eq_some_iff.mp taken
    unfold enlist at listed
    split at listed <;> cases listed
    exact .enlists here ‹_›
  · cases taken
    unfold handle
    split
    · exact .handles ‹_›
    · exact .rejects ..
  · cases taken
    exact .ticks _
  · cases taken
    exact .submits ..
  · cases taken
    exact .dispatches ..
  · cases taken
    exact .calls
  · obtain ⟨drain, here, turned⟩ := Option.bind_eq_some_iff.mp taken
    exact .rounds here turned
  · obtain ⟨drain, here, joined⟩ := Option.bind_eq_some_iff.mp taken
    have whole := joined
    unfold drainJoins at joined
    split at joined
    · split at joined <;> cases joined
      exact .joins here whole
    · cases joined
  all_goals
    obtain ⟨thread, here, moved⟩ := Option.bind_eq_some_iff.mp taken
    exact .turns here (turn_of_threadStep fenced here moved)

theorem changes_of_step (fenced : m.Fenced) (taken : m.step floatRepr a = some m') :
    ReflTransGen Ledger.Change m.ledger m'.ledger := by
  cases occurs_of_step fenced taken with
  | connects _ _ _ _ | acts _ _ _ | loses _ _ | breaks _ _ | enlists _ _ | rejects _ _ | calls
  | joins _ _ => exact .refl
  | serves _ served => exact changes_of_serve served
  | handles handled => exact changes_of_handled handled
  | ticks now => exact .single (.stale _ now)
  | submits t taskType payload => exact changes_of_submit ..
  | dispatches t taskType payload => exact changes_of_submitAndDispatch ..
  | rounds _ turned => exact changes_of_round turned
  | turns here turn => exact .single (turn.change here)

/-! ### Every run -/

theorem fenced_initial : initial.Fenced where
  records := fun _ _ found => absurd found (Option.some_ne_none _).symm
  exclusive := Master.exclusive_initial
  bounded := fun _ _ found => absurd found (Option.some_ne_none _).symm
  sound := fun _ _ there => absurd there (Option.some_ne_none _).symm
  alone := fun _ _ _ _ _ there => absurd there (Option.some_ne_none _).symm
  decided := fun _ _ found => absurd found (Option.some_ne_none _).symm
  counted := fun _ _ found => absurd found (Option.some_ne_none _).symm

theorem fenced_of_changes {l l' : Ledger} (fenced : Ledger.Fenced l.1 l.2)
    (changes : ReflTransGen Ledger.Change l l') : Ledger.Fenced l'.1 l'.2 := by
  induction changes with
  | refl => exact fenced
  | tail _ change ih => exact ih.change change

variable {ok : ThreadedMaster → ThreadedAction → Prop}

theorem fenced_of_later {m₀ : ThreadedMaster} (fenced : m₀.Fenced) (run : Steps (step floatRepr) ok m₀ m) :
    m.Fenced :=
  run.invariant (I := Fenced) fenced fun n _ _ fenced _ taken =>
    fenced_of_changes (l := n.ledger) fenced (changes_of_step fenced taken)

theorem fenced_of_run (run : Steps (step floatRepr) ok initial m) : m.Fenced := fenced_of_later fenced_initial run

end ThreadedMaster

namespace Ledger
variable {t : TaskId} {task : Task}

/-- Nobody can still decide over a task that is COMPLETED. -/
theorem Fenced.not_completed {s : Scheduler} {ts : List DispatchThread} {d : ThreadId} {thread : DispatchThread}
    (fenced : Fenced s ts) (here : ts[d]? = some thread) (unfinished : thread.finished = false)
    (found : s.tasks.get? thread.task = some task) (mine : thread.claim = some task.attempt) :
    task.status ≠ .completed := by
  intro completed
  rcases fenced.decided _ task found (by rw [completed]; rfl) with ⟨failed, _⟩ | ⟨e, response, there, _⟩
  · exact TaskStatus.noConfusion (completed.symm.trans failed)
  · obtain rfl := fenced.alone d e thread _ _ here there rfl mine rfl
    have finished := congrArg DispatchThread.finished (Option.some.inj (here.symm.trans there))
    exact Bool.false_ne_true (unfinished.symm.trans finished)

theorem Change.keeps_terminal {l l' : Ledger} (fenced : Fenced l.1 l.2) (change : Change l l')
    (found : l.1.tasks.get? t = some task) (ended : task.status.terminal = true) : l'.1.tasks.get? t = some task := by
  have idle : task.status.inFlight = false := by
    cases h : task.status <;> simp_all [TaskStatus.terminal, TaskStatus.inFlight]
  have untaken {held : Prop} [Decidable held] : ¬ (held ∧ task.status.inFlight = true) :=
    fun taken => Bool.false_ne_true (idle.symm.trans taken.2)
  -- a step that needs a task in another status is about another task
  have other {u : TaskId} {record : Task} (there : l.1.tasks.get? u = some record)
      (ongoing : record.status.terminal = false) : t ≠ u := by
    rintro rfl
    obtain rfl := Option.some.inj (found.symm.trans there)
    exact Bool.false_ne_true (ongoing.symm.trans ended)
  cases change with
  | request _ => exact found
  | submit absent =>
    rw [Dict.get?_insert, if_neg, found]
    rintro rfl
    exact Option.some_ne_none _ (found.symm.trans absent)
  | stale timeout now =>
    refine (Scheduler.get?_condemnStale ..).trans ((congrArg (Option.map _) found).trans ?_)
    exact congrArg some (if_neg untaken)
  | assign grants =>
    obtain ⟨w, record, _, there, pending, _, _, rfl⟩ := grants
    rw [Scheduler.get?_grant, if_neg (other there (by rw [pending]; rfl)), found]
  | @turn s s' ts d thread thread' here progress =>
    cases progress with
    | begins _ _ _ | works _ _ | ends _ _ _ => exact found
    | starts _ there assigned =>
      rw [Scheduler.get?_setTaskStatus, if_neg (other there (by rw [assigned]; rfl)), found]
    | finishes _ there running _ _ =>
      rw [Scheduler.released_tasks, Scheduler.get?_setTaskStatus, if_neg (other there (by rw [running]; rfl)),
        found]
    | @abandons record _ unfinished there _ _ mine _ =>
      have open' := fenced.not_completed here unfinished there mine
      rw [Scheduler.get?_setTaskStatus]
      split
      · rename_i same
        subst same
        obtain rfl := Option.some.inj (found.symm.trans there)
        have failed : task.status = .failed := by
          cases h : task.status <;> simp_all [TaskStatus.terminal]
        rw [found, Option.map_some, ← failed]
      · exact found
    | condemns _ _ _ _ =>
      rw [Scheduler.get?_condemned, found]
      exact congrArg some (if_neg untaken)

theorem keeps_terminal {l l' : Ledger} (fenced : Fenced l.1 l.2) (changes : ReflTransGen Change l l')
    (found : l.1.tasks.get? t = some task) (ended : task.status.terminal = true) : l'.1.tasks.get? t = some task := by
  induction changes with
  | refl => exact found
  | tail before change ih => exact change.keeps_terminal (ThreadedMaster.fenced_of_changes fenced before) ih ended

end Ledger

namespace ThreadedMaster
variable {floatRepr : BitVec 64 → String} {m : ThreadedMaster} {t : TaskId} {task : Task}

theorem ended_for_good {m' : ThreadedMaster} {ok : ThreadedMaster → ThreadedAction → Prop} (fenced : m.Fenced)
    (found : m.tasks.get? t = some task) (ended : task.status.terminal = true)
    (later : Steps (step floatRepr) ok m m') : m'.tasks.get? t = some task :=
  later.invariant_with (I := fun n => n.tasks.get? t = some task) (fun _ before => fenced_of_later fenced before)
    found fun n _ _ fenced kept _ taken =>
      Ledger.keeps_terminal (l := n.ledger) fenced (changes_of_step fenced taken) kept ended

/-- Whoever dispatches, and in whatever order: a task is dispatched once for each time that
it is assigned, and no attempt is started by two threads. A task that is COMPLETED or FAILED
stays as it is. It was decided by what the thread that had started its last attempt
returned, or it is FAILED because no attempt was left. -/
theorem task_decided_once (run : Steps (step floatRepr) anyStep initial m) (found : m.tasks.get? t = some task) :
    (m.threads.countP (fun thread => thread.task = t) = task.attempt ∧ task.attempt ≤ maxTaskAttempts) ∧
    (∀ (d e : ThreadId) (x y : DispatchThread) (p : Nat), m.threads[d]? = some x → m.threads[e]? = some y →
      x.task = t → y.task = t → x.claim = some p → y.claim = some p → d = e) ∧
    (task.status.terminal = true → Ledger.Decided m.threads t task ∧
      ∀ m', Steps (step floatRepr) anyStep m m' → m'.tasks.get? t = some task) := by
  have fenced := fenced_of_run run
  refine ⟨⟨fenced.counted t task found, fenced.bounded t task found⟩, fun d e x y p one two mine also => ?_,
    fun ended => ⟨fenced.decided t task found ended, fun m' later => ended_for_good fenced found ended later⟩⟩
  exact fenced.alone d e x y p one two (mine.trans also.symm)

/-- A worker registers and adds two numbers. -/
def additionScript : List ThreadedAction :=
  [.connect bareRuntime "w" "127.0.0.1" 6001, .worker 0 (.ping "1"), .serve 0 0 true, .worker 0 (.read "2"),
    .serve 0 0 true, .enlist 0, .submitTask "t" "ADD" [(.str "a", .int 2), (.str "b", .int 3)], .callDrain,
    .drainRound 0, .advance 0, .advance 0, .advance 0, .advance 0, .send 0 1000, .worker 0 (.read "3"),
    .worker 0 (.read "4"), .worker 0 .execute, .receive 0 1000, .advance 0, .drainJoins 0, .drainRound 0]

theorem additionScript_decided : ∃ m : ThreadedMaster, Steps (step fun _ => "") anyStep initial m ∧
    ∃ task, m.tasks.get? "t" = some task ∧ task.status = .completed ∧ Ledger.Decided m.threads "t" task := by
  obtain ⟨m, run, reached⟩ : ∃ m, Steps (step fun _ => "") anyStep initial m ∧
      (m.tasks.get? "t").any (fun task => task.status = .completed) = true :=
    replay_reaches additionScript (by decide +kernel)
  obtain ⟨task, found, completed⟩ := (Option.any_eq_true ..).mp reached
  have completed : task.status = .completed := of_decide_eq_true completed
  exact ⟨m, run, task, found, completed, ((task_decided_once run found).2.2 (by rw [completed]; rfl)).1⟩

end ThreadedMaster
end DistributedCompute
