import DistributedCompute.Assignment
import DistributedCompute.ThreadedAnswers

/-! What becomes of the tasks of the threaded master when one caller dispatches at a time. A
task that has ended tells what its worker computed, and a drain that returns leaves no task
in flight but those whose thread had no stack left for the JSON. -/
namespace DistributedCompute
open Py Relation Transition

namespace Ledger
variable {s s' : Scheduler} {t : TaskId}

/-- Where the record of a task comes from in a step that no thread takes; `ts` are the
threads after it. -/
inductive Origin (s : Scheduler) (ts : List DispatchThread) (t : TaskId) (task : Task) : Prop
  | new : s.tasks.get? t = none → task.status = .pending → Origin s ts t task
  | kept {before : Task} : s.tasks.get? t = some before → TakesBack before task → Origin s ts t task
  | assigned : (∀ before, s.tasks.get? t = some before → before.attempt < task.attempt) →
      task.status = .assigned → DispatchThread.start t ∈ ts → Origin s ts t task

/-- A batch is assigned after a step that has assigned nothing. -/
theorem origin_of_batch {scope : Option (List TaskId)} {batch : List TaskId} {mid : Scheduler}
    {ts : List DispatchThread} {task : Task} (made : Scheduler.Batch scope mid batch s')
    (before : ∀ record, mid.tasks.get? t = some record → (s.tasks.get? t = some record) ∨
      (s.tasks.get? t = none ∧ record.status = .pending))
    (found : s'.tasks.get? t = some task) : Origin s (ts ++ batch.map .start) t task := by
  by_cases member : t ∈ batch
  · obtain ⟨record, w, there, granted⟩ := granted_of_batch made member
    cases found.symm.trans granted
    refine .assigned (fun old known => ?_) rfl (List.mem_append_right _ (List.mem_map_of_mem member))
    rcases before record there with same | ⟨absent, _⟩
    · cases known.symm.trans same
      exact Nat.lt_succ_self _
    · cases known.symm.trans absent
  · rw [made.others member] at found
    rcases before task found with same | ⟨absent, pending⟩
    · exact .kept same (.inl rfl)
    · exact .new absent pending

end Ledger

namespace ThreadedMaster
variable {floatRepr : BitVec 64 → String} {m m' : ThreadedMaster} {d : ThreadId} {thread : DispatchThread}
  {a : ThreadedAction} {c : ConnId} {session : Session} {t : TaskId} {task : Task}

/-! ### Steps that no thread takes -/

structure Unturned (m m' : ThreadedMaster) : Prop where
  threads : ∃ batch : List TaskId, m'.threads = m.threads ++ batch.map .start
  origin : ∀ t task, m'.tasks.get? t = some task → Ledger.Origin m.scheduler m'.threads t task

theorem unturned_of_takesBack (threads : m'.threads = m.threads)
    (tasks : ∀ t task, m'.tasks.get? t = some task → ∃ before, m.tasks.get? t = some before ∧
      Ledger.TakesBack before task) : m.Unturned m' where
  threads := ⟨[], threads.trans (List.append_nil _).symm⟩
  origin := fun t task found => by
    obtain ⟨before, there, takes⟩ := tasks t task found
    exact .kept there takes

theorem unturned_of_same (threads : m'.threads = m.threads) (tasks : m'.tasks = m.tasks) : m.Unturned m' :=
  unturned_of_takesBack threads fun _ task found => ⟨task, tasks ▸ found, .inl rfl⟩

/-- The records after a submission. -/
theorem origin_of_submit (s : Scheduler) (u : TaskId) (taskType : String) (payload : List (Key × Val)) {record : Task}
    (found : (s.submitTask u taskType payload).2.tasks.get? t = some record) :
    s.tasks.get? t = some record ∨ (s.tasks.get? t = none ∧ record.status = .pending) := by
  rcases s.submitTask_cases u taskType payload with ⟨e, refused⟩ | ⟨absent, task, accepted⟩
  · rw [refused] at found
    exact .inl found
  · rw [accepted] at found
    simp only [Dict.get?_insert] at found
    split at found
    · rename_i same
      cases found
      exact .inr ⟨same ▸ absent, rfl⟩
    · exact .inl found

variable {u : TaskId} {i attempt : Nat} {drain : ThreadedDrain} {thread' : DispatchThread} {reply : Message}

theorem unturned_of_submit {taskType : String} {payload : List (Key × Val)} (threads : m'.threads = m.threads)
    (scheduler : m'.scheduler = (m.scheduler.submitTask u taskType payload).2) :
    m.Unturned m' := by
  refine ⟨⟨[], threads.trans (List.append_nil _).symm⟩, fun t task found => ?_⟩
  rw [tasks, scheduler] at found
  rcases origin_of_submit _ _ _ _ found with same | ⟨absent, pending⟩
  · exact .kept same (.inl rfl)
  · exact .new absent pending

theorem unturned_submitAndDispatch (m : ThreadedMaster) (u : TaskId) (taskType : String)
    (payload : List (Key × Val)) : m.Unturned (m.submitAndDispatchTask u taskType payload) := by
  unfold submitAndDispatchTask
  split
  · rename_i made
    exact unturned_of_submit rfl (congrArg Prod.snd made).symm
  · rename_i record s made
    split
    · rename_i next s' granted
      obtain ⟨grants, within⟩ := Scheduler.assignNextPendingTask_some granted
      have batch : Scheduler.Batch none s [next] s' := .cons grants within (.nil s')
      refine ⟨⟨[next], rfl⟩, fun t task found => Ledger.origin_of_batch batch (fun record known => ?_) found⟩
      refine origin_of_submit m.scheduler u taskType payload ?_
      rw [made]
      exact known
    · rename_i refused
      refine unturned_of_submit rfl (Eq.trans ?_ (congrArg Prod.snd made).symm)
      exact Scheduler.assignNextPendingTask_none refused

theorem unturned_round (taken : m.drainRound i drain = some m') :
    m.Unturned m' := by
  unfold drainRound at taken
  split at taken
  · simp only at taken
    split at taken <;> cases taken
    · exact unturned_of_same rfl rfl
    · exact ⟨⟨_, rfl⟩, fun t task found =>
        Ledger.origin_of_batch (m.scheduler.assignAll_batch none) (fun _ => .inl) found⟩
  · cases taken

theorem unturned_or_turn (fenced : m.Fenced) (taken : m.step floatRepr a = some m') :
    m.Unturned m' ∨ ∃ d thread, m.threads[d]? = some thread ∧ Turn floatRepr m d thread m' := by
  cases occurs_of_step fenced taken with
  | connects _ _ _ _ | acts _ _ _ | loses _ _ | breaks _ _ | enlists _ _ | handles _ | rejects _ _ | calls
  | joins _ _ => exact .inl (unturned_of_same rfl rfl)
  | serves _ served =>
    obtain ⟨threads, _, tasks⟩ := serve_frame served
    exact .inl (unturned_of_same threads tasks)
  | ticks now =>
    refine .inl (unturned_of_takesBack rfl fun t task found => ?_)
    obtain ⟨before, there, rfl⟩ := Option.map_eq_some_iff.mp ((Scheduler.get?_condemnStale ..).symm.trans found)
    exact ⟨before, there, Ledger.takesBack_ite _ before⟩
  | submits t taskType payload => exact .inl (unturned_of_submit rfl rfl)
  | dispatches t taskType payload => exact .inl (unturned_submitAndDispatch ..)
  | rounds _ turned => exact .inl (unturned_round turned)
  | turns here turn => exact .inr ⟨_, _, here, turn⟩

/-! ### Steps of a thread -/

variable {locals : Capture} {task' : Task} {w : WorkerId}

theorem owned_of_working (orderly : m.Orderly) (here : m.threads[d]? = some thread)
    (works : thread.pc.working? = some locals) : locals.workerId ≠ none := by
  obtain ⟨_, w, _, _, _, named, _⟩ := working_on orderly here works
  rw [named]
  exact Option.some_ne_none w

/-- Where the record of a task comes from when a thread takes a step. -/
theorem origin_of_turn (orderly : m.Orderly) (fenced : m.Fenced) (here : m.threads[d]? = some thread)
    (turn : Turn floatRepr m d thread m') (found' : m'.tasks.get? u = some task') :
    ∃ task, m.tasks.get? u = some task ∧ (Ledger.TakesBack task task' ∨ ∃ w status,
      task.status.inFlight = true ∧ task.assignedWorkerId = some w ∧ task' = { task with status } ∧
      (task.status = .running → status.inFlight = false)) := by
  have restatus {status : TaskStatus} {w : WorkerId} {task : Task} (found : m.tasks.get? thread.task = some task)
      (flying : task.status.inFlight = true) (owner : task.assignedWorkerId = some w)
      (ends : task.status = .running → status.inFlight = false)
      (after : (m.scheduler.setTaskStatus thread.task status).tasks.get? u = some task') :
      ∃ task, m.tasks.get? u = some task ∧ (Ledger.TakesBack task task' ∨ ∃ w status,
        task.status.inFlight = true ∧ task.assignedWorkerId = some w ∧ task' = { task with status } ∧
        (task.status = .running → status.inFlight = false)) := by
    rw [Scheduler.get?_setTaskStatus] at after
    split at after
    · rename_i same
      rw [same, found] at after
      cases after
      exact ⟨task, same ▸ found, .inr ⟨w, status, flying, owner, rfl, ends⟩⟩
    · exact ⟨task', after, .inl (.inl rfl)⟩
  cases turn with
  | @starts task locals pc found assigned =>
    rw [startTask_accepted found assigned] at found'
    have flying : task.status.inFlight = true := by rw [assigned]; rfl
    obtain ⟨w, owner⟩ := Option.isSome_iff_exists.mp ((fenced.records _ task found).held flying).1
    exact restatus found flying owner (fun running => TaskStatus.noConfusion (assigned.symm.trans running)) found'
  | @finishes task locals response w pc found running owner _ _ =>
    have released : ((m.scheduler.setTaskStatus thread.task
        (if response.isSuccess then .completed else .failed)).released w).tasks.get? u = some task' := found'
    rw [Scheduler.released_tasks] at released
    refine restatus found (by rw [running]; rfl) owner (fun _ => ?_) released
    split <;> rfl
  | abandons pc _ _ _ unowned _ _ => exact absurd unowned (owned_of_working orderly here (by rw [pc]; rfl))
  | condemns pc found running owner _ =>
    obtain ⟨task, there, rfl⟩ := Option.map_eq_some_iff.mp ((Scheduler.get?_condemned ..).symm.trans found')
    exact ⟨task, there, .inl (Ledger.takesBack_ite _ task)⟩
  | _ => exact ⟨task', found', .inl (.inl rfl)⟩

theorem thread_of_setThread {pc : ThreadPc} (here : m.threads[d]? = some thread) (n : ThreadedMaster)
    (threads : n.threads = m.threads) (there : (n.setThread d pc).threads[d]? = some thread') :
    thread' = { thread with pc } := by
  have set : (n.setThread d pc).threads = m.threads.set d { thread with pc } :=
    (congrArg (List.modify · d _) threads).trans (threads_modify here _)
  rw [set, List.getElem?_set_self (List.getElem?_eq_some_iff.mp here).1] at there
  exact (Option.some.inj there).symm

theorem thread_of_startTask (here : m.threads[d]? = some thread) (found : m.tasks.get? thread.task = some task)
    (assigned : task.status = .assigned)
    (there : (m.startTask d thread.task task locals).threads[d]? = some thread') :
    thread' = { thread with claim := some task.attempt, pc := .sending locals } := by
  rw [startTask_accepted found assigned] at there
  simp only [threads_modify here, List.getElem?_set_self (List.getElem?_eq_some_iff.mp here).1] at there
  exact (Option.some.inj there).symm

/-- A thread that is past `start_task` and finds that its attempt is over has lost its task. -/
theorem lapsed_of_stale (orderly : m.Orderly) (here : m.threads[d]? = some thread)
    (works : thread.pc.working? = some locals) (stale : m.isCurrentAttempt thread.task locals = false) :
    ∃ task, m.tasks.get? thread.task = some task ∧ task.status.inFlight = false ∧ task.assignedWorkerId = none := by
  obtain ⟨task, w, found, standing, _, named, attempt⟩ := working_on orderly here works
  refine ⟨task, found, ?_⟩
  cases standing with
  | @held v owner _ read =>
    have captured := (read.captured works).2.1
    simp [isCurrentAttempt, found, owner, captured, attempt] at stale
  | lapsed idle unowned _ => exact ⟨idle, unowned⟩

/-- A thread that is past `start_task` has lost its task, or runs it for the worker that it
has captured. -/
theorem running_of_working (orderly : m.Orderly) (fenced : m.Fenced) (here : m.threads[d]? = some thread)
    (works : thread.pc.working? = some locals) (found : m.tasks.get? thread.task = some task) :
    task.status.inFlight = false ∨
      (task.status = .running ∧ task.assignedWorkerId = locals.workerId ∧ locals.attempt = task.attempt ∧
        thread.claim = some task.attempt) := by
  obtain ⟨record, w, known, standing, _, _, attempt⟩ := working_on orderly here works
  obtain rfl := Option.some.inj (found.symm.trans known)
  cases standing with
  | lapsed idle _ _ => exact .inl idle
  | held owner status read =>
    rw [ThreadPc.begins_of_working works] at status
    obtain ⟨record, known, sound⟩ := fenced.sound d thread here
    obtain rfl := Option.some.inj (found.symm.trans known)
    exact .inr ⟨status, owner.trans (read.captured works).2.1.symm, attempt, (sound.current works attempt.symm).1⟩

/-! ### What the answers tell -/

/-- The worker `w` has executed the attempt at the task, with this reply. -/
def Executed (floatRepr : BitVec 64 → String) (m : ThreadedMaster) (t : TaskId) (w : WorkerId) (attempt : Nat)
    (reply : Message) : Prop :=
  ∃ (task : Task) (c : ConnId) (session : Session), m.tasks.get? t = some task ∧
    m.sessions[c]? = some session ∧ session.peer.workerId = w ∧
    TaskMessage.ofDispatch floatRepr t task attempt ∈ session.peer.served ∧
    session.peer.runtime.serveTask (.ofDispatch floatRepr t task attempt) = some reply

/-- The response is what has arrived of the reply. -/
def Computed (floatRepr : BitVec 64 → String) (m : ThreadedMaster) (t : TaskId) (w : WorkerId) (attempt : Nat)
    (response : Message) : Prop :=
  ∃ reply, m.Executed floatRepr t w attempt reply ∧ response = reply.overWire floatRepr

/-- The thread of the current attempt had no stack left for the TASK, or for the reply of
the worker, and has left the task RUNNING. -/
def Overflowed (floatRepr : BitVec 64 → String) (m : ThreadedMaster) (t : TaskId) (task : Task) : Prop :=
  task.status = .running ∧ ∃ (d : ThreadId) (depth : Nat),
    m.threads[d]? = some ⟨t, some task.attempt, .overflowed depth⟩ ∧
    (depth < (dispatchRequest t task task.attempt).toVal.nesting ∨
      ∃ w reply, task.assignedWorkerId = some w ∧ m.Executed floatRepr t w task.attempt reply ∧
        depth < reply.toVal.nesting)

theorem Executed.later (executed : m.Executed floatRepr t w attempt reply) (since : m.Since m') :
    m'.Executed floatRepr t w attempt reply := by
  obtain ⟨task, c, session, found, there, named, done, served⟩ := executed
  obtain ⟨task', found', typed, filled⟩ := since.work t task found
  obtain ⟨session', there', keeps⟩ := since.sessions c session there
  have same : TaskMessage.ofDispatch floatRepr t task' attempt = .ofDispatch floatRepr t task attempt :=
    ofDispatch_congr typed filled t attempt
  refine ⟨task', c, session', found', there', keeps.workerId.trans named, ?_, ?_⟩
  · rw [same]
    exact keeps.served done
  · rw [same, keeps.runtime]
    exact served

theorem Computed.later {response : Message} (computed : m.Computed floatRepr t w attempt response)
    (since : m.Since m') :
    m'.Computed floatRepr t w attempt response := by
  obtain ⟨reply, executed, rfl⟩ := computed
  exact ⟨reply, executed.later since, rfl⟩

theorem Overflowed.later (overflowed : m.Overflowed floatRepr t task) (since : m.Since m')
    (kept : ∀ (d : ThreadId) (thread : DispatchThread), m.threads[d]? = some thread → thread.finished = true →
      m'.threads[d]? = some thread) : m'.Overflowed floatRepr t task := by
  obtain ⟨running, d, depth, here, deep⟩ := overflowed
  refine ⟨running, d, depth, kept d _ here rfl, deep.imp_right ?_⟩
  rintro ⟨w, reply, owner, executed, deep⟩
  exact ⟨w, reply, owner, executed.later since, deep⟩

theorem status_of_reply {rt : Runtime} {message : TaskMessage} (served : rt.serveTask message = some reply) :
    (reply.overWire floatRepr).get? "status" ≠ none := by
  obtain ⟨fields, returned, rfl⟩ := serveTask_reply served
  unfold Runtime.executeTask at returned
  split at returned
  case h_3 => cases returned
  all_goals
    cases returned
    simp [Message.get?, field, Message.overWire, TaskMessage.reply, buildMessage]

structure Told (floatRepr : BitVec 64 → String) (m : ThreadedMaster) : Prop where
  answered : ∀ (d : ThreadId) (thread : DispatchThread) (locals : Capture) (response : Message),
    m.threads[d]? = some thread → thread.pc = .answered locals response →
    ∃ w, locals.workerId = some w ∧ m.Computed floatRepr thread.task w locals.attempt response
  returned : ∀ (d : ThreadId) (thread : DispatchThread) (response : Message) (task : Task),
    m.threads[d]? = some thread → thread.pc = .returned response → m.tasks.get? thread.task = some task →
    thread.claim = some task.attempt → task.assignedWorkerId = none ∨
      ∃ w, task.assignedWorkerId = some w ∧ m.Computed floatRepr thread.task w task.attempt response
  exhausted : ∀ t task, m.tasks.get? t = some task → task.status.terminal = true → task.assignedWorkerId = none →
    task.status = .failed ∧ maxTaskAttempts ≤ task.attempt
  covered : ∀ t task, m.tasks.get? t = some task → task.status.inFlight = true →
    (∃ (d : ThreadId) (thread : DispatchThread), m.threads[d]? = some thread ∧ thread.task = t ∧
      thread.finished = false) ∨ m.Overflowed floatRepr t task

theorem exhausted_takenBack (task : Task) (ended : task.takenBack.status.terminal = true) :
    task.takenBack.status = .failed ∧ maxTaskAttempts ≤ task.takenBack.attempt := by
  unfold Task.takenBack at ended ⊢
  simp only at ended ⊢
  split at ended
  · rename_i exhausted
    exact ⟨if_pos exhausted, exhausted⟩
  · cases ended

theorem Told.unturned (told : m.Told floatRepr) (fenced : m.Fenced) (since : m.Since m') (unturned : m.Unturned m') :
    m'.Told floatRepr := by
  obtain ⟨batch, threads⟩ := unturned.threads
  have kept (d : ThreadId) (thread : DispatchThread) (here : m.threads[d]? = some thread) :
      m'.threads[d]? = some thread := by
    rw [threads, List.getElem?_append_left (List.getElem?_eq_some_iff.mp here).1]
    exact here
  -- a thread that has begun was there before
  have old {d : ThreadId} {thread : DispatchThread} (there : m'.threads[d]? = some thread)
      (begun : thread.pc ≠ .entered) : m.threads[d]? = some thread := by
    rw [threads, List.getElem?_append] at there
    split at there
    · exact there
    · obtain ⟨t, _, rfl⟩ := List.mem_map.mp (List.mem_of_getElem? there)
      exact absurd rfl begun
  refine ⟨fun d thread locals response there pc => ?_, fun d thread response task there pc found mine => ?_,
    fun t task found ended unowned => ?_, fun t task found flying => ?_⟩
  · obtain ⟨w, named, computed⟩ := told.answered d thread locals response
      (old there (by rw [pc]; exact ThreadPc.noConfusion)) pc
    exact ⟨w, named, computed.later since⟩
  · have here := old there (by rw [pc]; exact ThreadPc.noConfusion)
    obtain ⟨known, found', sound⟩ := fenced.sound d thread here
    cases unturned.origin _ task found with
    | new absent _ => cases found'.symm.trans absent
    | kept there takes =>
      cases found'.symm.trans there
      rcases takes with rfl | rfl
      · rcases told.returned d thread response task here pc there mine with unowned | ⟨w, owner, computed⟩
        · exact .inl unowned
        · exact .inr ⟨w, owner, computed.later since⟩
      · exact .inl rfl
    | assigned grown _ _ =>
      have := (sound.claimed _ mine).made
      exact absurd (grown known found') (Nat.not_lt.mpr this)
  · cases unturned.origin t task found with
    | new _ pending => rw [pending] at ended; cases ended
    | kept there takes =>
      rcases takes with rfl | rfl
      · exact told.exhausted t task there ended unowned
      · exact exhausted_takenBack _ ended
    | assigned _ assigned _ => rw [assigned] at ended; cases ended
  · cases unturned.origin t task found with
    | new _ pending => rw [pending] at flying; cases flying
    | kept there takes =>
      rcases takes with rfl | rfl
      · rcases told.covered t task there flying with ⟨d, thread, here, same, unfinished⟩ | overflowed
        · exact .inl ⟨d, thread, kept d thread here, same, unfinished⟩
        · exact .inr (overflowed.later since fun d thread here _ => kept d thread here)
      · rw [Scheduler.takenBack_inFlight] at flying
        cases flying
    | assigned _ _ begun =>
      obtain ⟨d, there⟩ := List.getElem?_of_mem begun
      exact .inl ⟨d, _, there, rfl, rfl⟩

section Own
variable {thread' : DispatchThread} (conversing : m.Conversing floatRepr) (orderly : m.Orderly)
  (here : m.threads[d]? = some thread) (turn : Turn floatRepr m d thread m') (there : m'.threads[d]? = some thread')
variable {response : Message}
include conversing orderly here turn there

/-- A thread gets a response by reading it from its connection. -/
theorem read_of_answered (after : thread'.pc = .answered locals response) :
    thread'.task = thread.task ∧ ∃ session document rest, thread.pc = .receiving locals ∧
      m.sessions[locals.conn]? = some session ∧ session.peer.outbox = document :: rest ∧
      decodeMessage document = .ok response := by
  cases turn with
  | starts _ found assigned =>
    obtain rfl := thread_of_startTask here found assigned there
    cases after
  | @receives session own depth document rest pc at_c said =>
    obtain rfl := thread_of_setThread here (m.popped ..) rfl there
    unfold ThreadPc.received at after
    simp only at after
    split at after
    · cases after
    · split at after <;> cases after
      exact ⟨rfl, session, document, rest, pc, at_c, said, ‹_›⟩
  | mixed pc at_c mixed =>
    cases (not_mixed conversing orderly here pc at_c).symm.trans mixed
  | finishes _ _ _ _ _ _ | abandons _ _ _ _ _ _ _ | condemns _ _ _ _ _ =>
    obtain rfl := thread_of_setThread here { m with scheduler := _ } rfl there
    cases after
  | sends _ _ _ =>
    obtain rfl := thread_of_setThread here (m.write ..) rfl there
    cases after
  | _ =>
    obtain rfl := thread_of_setThread here m rfl there
    cases after

/-- What it has read is the answer to the TASK that it has sent. -/
theorem computed_of_answered (after : thread'.pc = .answered locals response) :
    ∃ w, locals.workerId = some w ∧ m.Computed floatRepr thread'.task w locals.attempt response := by
  obtain ⟨same, session, document, rest, pc, at_c, said, decoded⟩ :=
    read_of_answered conversing orderly here turn there after
  obtain ⟨w, task, named, _, worker, _, found, asked⟩ := asked_of_receiving conversing orderly here pc at_c
  obtain ⟨_, done, reply, served, _, heard⟩ := asked.popped (dispatchId_ne _) said
  cases decoded.symm.trans heard
  rw [same]
  exact ⟨w, named, reply, ⟨task, locals.conn, session, found, at_c, worker, done, served⟩, rfl⟩

end Own

/-- The record of a task that has been settled. -/
theorem record_of_released {status : TaskStatus} (found : m.tasks.get? t = some task)
    (found' : ((m.scheduler.setTaskStatus t status).released w).tasks.get? t = some task') :
    task' = { task with status } := by
  rw [Scheduler.released_tasks, Scheduler.get?_setTaskStatus, if_pos rfl, found] at found'
  exact (Option.some.inj found').symm

/-- The record that a worker is condemned for has no worker any more. -/
theorem takenBack_of_condemned (found : m.tasks.get? t = some task) (running : task.status = .running)
    (owner : task.assignedWorkerId = some w) (found' : (m.scheduler.condemned w).tasks.get? t = some task') :
    task' = task.takenBack := by
  have after := (Scheduler.get?_condemned ..).symm.trans found'
  rw [found] at after
  exact (Option.some.inj after).symm.trans (if_pos ⟨owner, by rw [running]; rfl⟩)

section Ending
variable {thread' : DispatchThread} {task' : Task} (told : m.Told floatRepr) (conversing : m.Conversing floatRepr)
  (orderly : m.Orderly) (here : m.threads[d]? = some thread) (turn : Turn floatRepr m d thread m')
  (there : m'.threads[d]? = some thread') (found' : m'.tasks.get? thread.task = some task')
include told conversing orderly here turn there found'

/-- A thread returns when its task has been taken back, or with what its worker computed. -/
theorem computed_of_returned {response : Message} (after : thread'.pc = .returned response)
    (mine : thread'.claim = some task'.attempt) : thread'.task = thread.task ∧ (task'.assignedWorkerId = none ∨
      ∃ w, task'.assignedWorkerId = some w ∧ m.Computed floatRepr thread.task w task'.attempt response) := by
  cases turn with
  | starts _ found assigned =>
    obtain rfl := thread_of_startTask here found assigned there
    cases after
  | ignored pc stale | forgotten pc stale =>
    obtain rfl := thread_of_setThread here m rfl there
    obtain ⟨task, found, _, unowned⟩ := lapsed_of_stale orderly here (by rw [pc]; rfl) stale
    cases found'.symm.trans found
    exact ⟨rfl, .inl unowned⟩
  | @finishes task locals answer w pc found running owner named claim =>
    obtain rfl := thread_of_setThread here { m with scheduler := _ } rfl there
    cases after
    obtain rfl := record_of_released found found'
    obtain ⟨v, named', computed⟩ := told.answered d thread locals response here pc
    obtain rfl : v = w := Option.some.inj (named'.symm.trans named)
    obtain ⟨record, _, known, _, _, _, attempt⟩ :=
      working_on orderly here (by rw [pc]; rfl : thread.pc.working? = some locals)
    cases found.symm.trans known
    rw [attempt] at computed
    exact ⟨rfl, .inr ⟨v, owner, computed⟩⟩
  | abandons pc _ _ _ unowned _ _ => exact absurd unowned (owned_of_working orderly here (by rw [pc]; rfl))
  | condemns pc found running owner _ =>
    obtain rfl := thread_of_setThread here { m with scheduler := _ } rfl there
    obtain rfl := takenBack_of_condemned found running owner found'
    exact ⟨rfl, .inl rfl⟩
  | @receives session locals depth document rest pc at_c said =>
    obtain rfl := thread_of_setThread here (m.popped ..) rfl there
    unfold ThreadPc.received at after
    simp only at after
    split at after
    · cases after
    · split at after <;> cases after
  | mixed pc at_c mixed =>
    cases (not_mixed conversing orderly here pc at_c).symm.trans mixed
  | sends _ _ _ =>
    obtain rfl := thread_of_setThread here (m.write ..) rfl there
    cases after
  | _ =>
    obtain rfl := thread_of_setThread here m rfl there
    cases after

/-- A thread ends when its task is no longer in flight, or for want of stack. -/
theorem idle_of_finished (fenced : m.Fenced) (since : m.Since m') (after : thread'.finished = true) :
    task'.status.inFlight = false ∨ m'.Overflowed floatRepr thread.task task' := by
  cases turn with
  | @overflows task locals depth pc found deep =>
    cases found'.symm.trans found
    obtain rfl := thread_of_setThread here m rfl there
    refine (running_of_working orderly fenced here (by rw [pc]; rfl) found).imp_right ?_
    rintro ⟨running, _, attempt, claimed⟩
    rw [attempt] at deep
    exact ⟨running, d, depth, claimed ▸ there, .inl (nesting_of_encode deep)⟩
  | @receives session locals depth document rest pc at_c said =>
    obtain ⟨w, task, named, _, worker, _, found, asked⟩ := asked_of_receiving conversing orderly here pc at_c
    obtain ⟨_, done, reply, served, rfl, heard⟩ := asked.popped (dispatchId_ne _) said
    cases found'.symm.trans found
    obtain rfl := thread_of_setThread here (m.popped ..) rfl there
    by_cases deep : depth < (reply.document floatRepr).nesting
    · simp only [ThreadPc.received, if_pos deep] at there since ⊢
      refine (running_of_working orderly fenced here (by rw [pc]; rfl) found).imp_right ?_
      rintro ⟨running, owner, attempt, claimed⟩
      rw [attempt] at done served
      have executed : m.Executed floatRepr thread.task w task'.attempt reply :=
        ⟨task', locals.conn, session, found, at_c, worker, done, served⟩
      rw [Message.document, Val.nesting_document] at deep
      exact ⟨running, d, depth, claimed ▸ there, .inr ⟨w, reply, owner.trans named, executed.later since, deep⟩⟩
    · simp [DispatchThread.finished, ThreadPc.received, heard, deep] at after
  | @unknown task pc found missing =>
    obtain ⟨record, known, standing⟩ := orderly.leased.standing d thread here (by rw [DispatchThread.finished, pc])
    cases found.symm.trans known
    cases found'.symm.trans found
    cases standing with
    | @held w owner _ _ =>
      -- the worker of the task has a connection
      have dispatching : m.dispatching = true :=
        dispatching_of_thread here (by rw [DispatchThread.finished, pc])
      have connected := orderly.known dispatching w ((fenced.records _ _ found).known w owner)
      rw [owner, Option.bind_some] at missing
      rw [missing] at connected
      cases connected
    | lapsed idle _ _ => exact .inl idle
  | @refused task locals pc found notAssigned =>
    obtain ⟨record, known, standing⟩ := orderly.leased.standing d thread here (by rw [DispatchThread.finished, pc])
    cases found.symm.trans known
    cases found'.symm.trans found
    cases standing with
    | held _ status _ =>
      rw [pc] at status
      exact absurd status notAssigned
    | lapsed idle _ _ => exact .inl idle
  | ignored pc stale | forgotten pc stale =>
    obtain ⟨task, found, idle, _⟩ := lapsed_of_stale orderly here (by rw [pc]; rfl) stale
    cases found'.symm.trans found
    exact .inl idle
  | @malformed locals response pc _ missing =>
    obtain ⟨w, _, reply, ⟨_, _, _, _, _, _, _, served⟩, rfl⟩ := told.answered d thread locals response here pc
    exact absurd missing (status_of_reply served)
  | uncompleted pc found _ idle =>
    cases found'.symm.trans found
    exact .inl idle
  | @finishes task locals response w pc found running owner _ _ =>
    obtain rfl := record_of_released found found'
    refine .inl ?_
    simp only
    split <;> rfl
  | abandons pc _ _ _ unowned _ _ | unowned pc unowned =>
    exact absurd unowned (owned_of_working orderly here (by rw [pc]; rfl))
  | condemns pc found running owner _ =>
    obtain rfl := takenBack_of_condemned found running owner found'
    exact .inl (Scheduler.takenBack_inFlight _)
  | mixed pc at_c mixed =>
    cases (not_mixed conversing orderly here pc at_c).symm.trans mixed
  | starts _ found assigned =>
    obtain rfl := thread_of_startTask here found assigned there
    cases after
  | sends _ _ _ =>
    obtain rfl := thread_of_setThread here (m.write ..) rfl there
    cases after
  | _ =>
    obtain rfl := thread_of_setThread here m rfl there
    cases after

end Ending

theorem Told.turn (told : m.Told floatRepr) (conversing : m.Conversing floatRepr) (orderly : m.Orderly)
    (fenced : m.Fenced) (since : m.Since m') (here : m.threads[d]? = some thread)
    (turn : Turn floatRepr m d thread m') : m'.Told floatRepr := by
  obtain ⟨thread', progress, threads⟩ := turn.stepped here
  have own : m'.threads[d]? = some thread' := by
    rw [threads, List.getElem?_set_self (List.getElem?_eq_some_iff.mp here).1]
  have cases_of {e : ThreadId} {other : DispatchThread} (there : m'.threads[e]? = some other) :
      (e = d ∧ other = thread') ∨ (e ≠ d ∧ m.threads[e]? = some other) := by
    rw [threads] at there
    exact getElem?_set_cases here there
  have origin {u : TaskId} {task' : Task} (found : m'.tasks.get? u = some task') :=
    origin_of_turn orderly fenced here turn found
  refine ⟨fun e other locals response there pc => ?_, fun e other response task there pc found mine => ?_,
    fun t task found ended unowned => ?_, fun t task found flying => ?_⟩
  · rcases cases_of there with ⟨rfl, rfl⟩ | ⟨_, old⟩
    · obtain ⟨w, named, computed⟩ := computed_of_answered conversing orderly here turn there pc
      exact ⟨w, named, computed.later since⟩
    · obtain ⟨w, named, computed⟩ := told.answered e other locals response old pc
      exact ⟨w, named, computed.later since⟩
  · rcases cases_of there with ⟨rfl, rfl⟩ | ⟨_, old⟩
    · rw [progress.task] at found ⊢
      obtain ⟨_, unowned | ⟨w, owner, computed⟩⟩ :=
        computed_of_returned told conversing orderly here turn there found pc mine
      · exact .inl unowned
      · exact .inr ⟨w, owner, computed.later since⟩
    · -- the record of another thread keeps its worker, or is taken back
      obtain ⟨record, known, takes | ⟨w, status, flew, owner, rfl, _⟩⟩ := origin found
      · rcases takes with rfl | rfl
        · rcases told.returned e other response task old pc known mine with unowned | ⟨w, owner, computed⟩
          · exact .inl unowned
          · exact .inr ⟨w, owner, computed.later since⟩
        · exact .inl rfl
      · rcases told.returned e other response record old pc known mine with unowned | ⟨v, owner', computed⟩
        · exact .inl unowned
        · exact .inr ⟨v, owner', computed.later since⟩
  · obtain ⟨record, known, takes | ⟨w, status, flew, owner, rfl, _⟩⟩ := origin found
    · rcases takes with rfl | rfl
      · exact told.exhausted t task known ended unowned
      · exact exhausted_takenBack _ ended
    · cases owner.symm.trans unowned
  · obtain ⟨record, known, flew, again⟩ : ∃ record, m.tasks.get? t = some record ∧ record.status.inFlight = true ∧
        (record.status = .running → record = task) := by
      obtain ⟨record, known, takes | ⟨_, _, flew, _, rfl, ends⟩⟩ := origin found
      · rcases takes with rfl | rfl
        · exact ⟨task, known, flying, fun _ => rfl⟩
        · rw [Scheduler.takenBack_inFlight] at flying
          cases flying
      · exact ⟨record, known, flew, fun running => absurd ((ends running).symm.trans flying) Bool.false_ne_true⟩
    have kept {e : ThreadId} {other : DispatchThread} (there : m.threads[e]? = some other) (apart : e ≠ d) :
        m'.threads[e]? = some other := by
      rw [threads, List.getElem?_set_ne apart.symm]
      exact there
    rcases told.covered t record known flew with ⟨e, other, there, same, unfinished⟩ | overflowed
    · by_cases mine : e = d
      · subst mine
        obtain rfl := Option.some.inj (here.symm.trans there)
        rw [← same] at found ⊢
        cases finished : thread'.finished with
        | false => exact .inl ⟨e, thread', own, progress.task, finished⟩
        | true =>
          refine .inr ((idle_of_finished told conversing orderly here turn own found fenced since
            finished).resolve_left fun idle => ?_)
          exact Bool.false_ne_true (idle.symm.trans flying)
      · exact .inl ⟨e, other, kept there mine, same, unfinished⟩
    · obtain rfl := again overflowed.1
      refine .inr (overflowed.later since fun e other there finished => kept there ?_)
      rintro rfl
      obtain rfl := Option.some.inj (here.symm.trans there)
      exact Bool.false_ne_true (progress.unfinished.symm.trans finished)

theorem told_initial : initial.Told floatRepr where
  answered := fun _ _ _ _ there => by simp [initial] at there
  returned := fun _ _ _ _ there => by simp [initial] at there
  exhausted := fun _ _ found => by simp [initial, tasks] at found
  covered := fun _ _ found => by simp [initial, tasks] at found

theorem told_of_run (run : Steps (step floatRepr) mainStep initial m) : m.Told floatRepr :=
  run.invariant_with (I := fun m => m.Told floatRepr)
    (fun _ before => And.intro (fenced_of_run before) (And.intro (orderly_of_run before) (conversing_of_run before)))
    told_initial
    fun _ _ _ known told _ taken => by
      obtain ⟨fenced, orderly, conversing⟩ := known
      have since := since_of_step fenced taken
      rcases unturned_or_turn fenced taken with unturned | ⟨d, thread, here, turn⟩
      · exact told.unturned fenced since unturned
      · exact told.turn conversing orderly fenced since here turn

/-! ### Tasks that have ended, and drains that have returned -/

/-- When one caller dispatches at a time, a task that has ended is FAILED because no attempt
was left, or the worker that it names has executed its last attempt. The thread that sent
that attempt has returned what `execute_task` gave on that worker for the type and the
payload of the task, and the task is COMPLETED exactly if that was a success. -/
theorem ended_task_computed (run : Steps (step floatRepr) mainStep initial m)
    (found : m.tasks.get? t = some task) (ended : task.status.terminal = true) :
    (task.status = .failed ∧ task.assignedWorkerId = none ∧ task.attempt = maxTaskAttempts) ∨
    ∃ (w : WorkerId) (d : ThreadId) (c : ConnId) (session : Session) (response : Message),
      task.assignedWorkerId = some w ∧ m.threads[d]? = some ⟨t, some task.attempt, .returned response⟩ ∧
      m.sessions[c]? = some session ∧ session.peer.workerId = w ∧
      TaskMessage.ofDispatch floatRepr t task task.attempt ∈ session.peer.served ∧
      session.peer.runtime.Reflects floatRepr task response ∧
      (task.status = .completed ↔ response.isSuccess = true) := by
  have fenced := fenced_of_run run
  have told := told_of_run run
  rcases fenced.decided t task found ended with exhausted | ⟨d, response, returned, agrees⟩
  · exact .inl exhausted
  · rcases told.returned d _ response task returned rfl found rfl with unowned | ⟨w, owner, computed⟩
    · obtain ⟨failed, spent⟩ := told.exhausted t task found ended unowned
      exact .inl ⟨failed, unowned, Nat.le_antisymm (fenced.bounded t task found) spent⟩
    · obtain ⟨reply, ⟨record, c, session, known, there, named, done, served⟩, rfl⟩ := computed
      obtain rfl : task = record := Option.some.inj (found.symm.trans known)
      exact .inr ⟨w, d, c, session, _, owner, returned, there, named, done, reflects_of_reply rfl rfl served, agrees⟩

theorem additionScript_computed : ∃ m : ThreadedMaster,
    Steps (step fun _ => "") mainStep initial m ∧ ∃ task, m.tasks.get? "t" = some task ∧
      task.status = .completed ∧ ∃ (session : Session) (response : Message), session ∈ m.sessions ∧
        session.peer.runtime.Reflects (fun _ => "") task response ∧ response.isSuccess = true := by
  obtain ⟨m, run, reached⟩ : ∃ m, Steps (step fun _ => "") mainStep initial m ∧
      (m.tasks.get? "t").any (fun task => task.status = .completed) = true :=
    replay_reaches additionScript (by decide +kernel)
  obtain ⟨task, found, completed⟩ := (Option.any_eq_true ..).mp reached
  have completed : task.status = .completed := of_decide_eq_true completed
  refine ⟨m, run, task, found, completed, ?_⟩
  rcases ended_task_computed run found (by rw [completed]; rfl) with
    ⟨failed, _⟩ | ⟨_, _, _, session, response, _, _, there, _, _, reflects, agrees⟩
  · cases completed.symm.trans failed
  · exact ⟨session, response, List.mem_of_getElem? there, reflects, agrees.mp completed⟩

/-- The last round of a drain has found nothing to assign. -/
theorem unassignable_of_round {drain' : ThreadedDrain} (there : m.drains[i]? = some drain)
    (taken : m.drainRound i drain = some m') (after : m'.drains[i]? = some drain')
    (returned : drain'.pc = .returned) : drain.pc = .looping ∧ m'.scheduler = m.scheduler ∧ m'.threads = m.threads ∧
      (m.scheduler.pendingTasks none = [] ∨ m.scheduler.idleWorkers = []) := by
  have bound := (List.getElem?_eq_some_iff.mp there).1
  unfold drainRound at taken
  split at taken
  · simp only at taken
    split at taken
    · rename_i looping empty
      cases taken
      refine ⟨looping, rfl, rfl, ?_⟩
      rw [Scheduler.assignAll_eq, List.isEmpty_iff, List.map_eq_nil_iff] at empty
      exact List.zip_eq_nil_iff.mp empty
    · cases taken
      simp only [ThreadedMaster.setDrain, spawn, List.getElem?_set_self bound] at after
      cases after
      cases returned
  · cases taken

end ThreadedMaster
end DistributedCompute
