import DistributedCompute.Invariants
import DistributedCompute.Lease

/-! Every task of the master is a unit of fenced work. `Master.lease m t` reads
the lease of task `t` off the state: the dispatches inside `send_task` are its
working holders, those inside `_close_connection_if_draining` have settled it,
and the history gives the TASK messages sent and the responses recorded. Every
step of the master is a sequence of lease moves for every task. -/
namespace DistributedCompute
open Py Relation Transition

def TaskStatus.lease : TaskStatus → Lease.Status
  | .pending => .waiting
  | .assigned => .granted
  | .running => .running
  | .completed => .succeeded
  | .failed => .failed

def Dispatch.holder (t : TaskId) (dispatch : Dispatch) : Option (Lease.Holder WorkerId Message) :=
  if dispatch.taskId = t then
    match dispatch.pc with
    | .sending _ w attempt _ _ => some (.working w attempt)
    | .closing _ _ response => some (.settled response)
    | _ => none
  else none

def Event.sentOf (t : TaskId) : Event → Option Nat
  | .sent u attempt _ => if u = t then some attempt else none
  | _ => none

def Event.recordedOf (t : TaskId) : Event → Option Message
  | .recorded u response => if u = t then some response else none
  | _ => none

def leaseRules (t : TaskId) : Lease.Rules Message where
  limit := maxTaskAttempts
  limit_pos := by decide
  good := Message.isSuccess
  belongs := fun response attempt => response.requestId = attemptRequestId t attempt

namespace Master

/-- The attempt numbers of the TASK messages written for `t`, in sending order. -/
def sentAttempts (m : Master) (t : TaskId) : List Nat := m.history.filterMap (Event.sentOf t)

/-- The writes of `_task_responses[t]`, in order. -/
def recordedResponses (m : Master) (t : TaskId) : List Message := m.history.filterMap (Event.recordedOf t)

def lease (m : Master) (t : TaskId) : Lease.State WorkerId DispatchId Message where
  status := ((m.tasks.get? t).map (fun task => task.status.lease)).getD .waiting
  owner := (m.tasks.get? t).bind Task.assignedWorkerId
  attempt := ((m.tasks.get? t).map Task.attempt).getD 0
  holders := fun d => (m.dispatches[d]?).bind (Dispatch.holder t)
  sent := m.sentAttempts t
  published := m.recordedResponses t

variable {m m' : Master} {t u : TaskId} {d : DispatchId} {old : DispatchPc} {task : Task} {lossy : Prop} {a : Action}
  {w : WorkerId} {ok : Master → Action → Prop}

theorem lease_congr (task : m'.tasks.get? t = m.tasks.get? t) (dispatches : m'.dispatches = m.dispatches)
    (history : m'.history = m.history) :
    m'.lease t = m.lease t := by
  simp only [lease, sentAttempts, recordedResponses, task, dispatches, history]

theorem lease_setDispatch (t : TaskId) (pc : DispatchPc) (there : m.dispatches[d]? = some ⟨u, old⟩) :
    (m.setDispatch d pc).lease t = (m.lease t).setHolder d (Dispatch.holder t ⟨u, pc⟩) := by
  have holders : (fun e => ((m.setDispatch d pc).dispatches[e]?).bind (Dispatch.holder t)) =
      Function.update (fun e => (m.dispatches[e]?).bind (Dispatch.holder t)) d
        (Dispatch.holder t ⟨u, pc⟩) := by
    funext e
    rw [dispatches_setDispatch, Function.update_apply]
    split
    · rename_i same
      rw [same, there]
      rfl
    · rfl
  simp only [lease, Lease.State.setHolder, holders]
  rfl

theorem setHolder_same {s : Lease.State WorkerId DispatchId Message} {holder : Option (Lease.Holder WorkerId Message)}
    (same : s.holders d = holder) :
    s.setHolder d holder = s := by
  subst same
  simp [Lease.State.setHolder]

/-- A dispatch that is not a holder of `t` before and after leaves the lease alone. -/
theorem lease_setDispatch_same {pc : DispatchPc} (there : m.dispatches[d]? = some ⟨u, old⟩)
    (same : Dispatch.holder t ⟨u, old⟩ = Dispatch.holder t ⟨u, pc⟩) :
    (m.setDispatch d pc).lease t = m.lease t := by
  rw [lease_setDispatch t pc there]
  refine setHolder_same ?_
  simp only [lease, there, Option.bind_some, same]

theorem holder_of_other (pc : DispatchPc) (other : u ≠ t) :
    Dispatch.holder t ⟨u, pc⟩ = none := if_neg other

theorem lease_setDispatch_other (pc : DispatchPc) (there : m.dispatches[d]? = some ⟨u, old⟩) (other : u ≠ t) :
    (m.setDispatch d pc).lease t = m.lease t :=
  lease_setDispatch_same there ((holder_of_other old other).trans (holder_of_other pc other).symm)

/-! ### A worker is given up -/

theorem lease_of_task (found : m.tasks.get? t = some task) :
    (m.lease t).status = task.status.lease ∧ (m.lease t).owner = task.assignedWorkerId ∧
      (m.lease t).attempt = task.attempt := by
  simp [lease, found]

theorem lease_held : task.status.lease.held = task.status.inFlight := by
  cases task.status <;> rfl

theorem lease_final : task.status.lease.final = task.status.terminal := by
  cases task.status <;> rfl

theorem lease_takenBack (found : m.tasks.get? t = some task) (taken : m'.tasks.get? t = some task.takenBack)
    (dispatches : m'.dispatches = m.dispatches) (history : m'.history = m.history) :
    m'.lease t = { m.lease t with
      status := if (leaseRules t).limit ≤ (m.lease t).attempt then .failed else .waiting
      owner := none } := by
  obtain ⟨_, _, attempt⟩ := lease_of_task found
  have status : task.takenBack.status.lease =
      if (leaseRules t).limit ≤ (m.lease t).attempt then .failed else .waiting := by
    rw [attempt]
    by_cases last : maxTaskAttempts ≤ task.attempt <;> simp [Task.takenBack, leaseRules, last, TaskStatus.lease]
  simp only [lease, sentAttempts, recordedResponses, taken, dispatches, history, Option.map_some,
    Option.getD_some, Option.bind_some, status]
  simp [found, Task.takenBack]

/-- Requeueing the tasks of a worker: `t` keeps its lease or it is taken back. -/
theorem lease_requeued {held : Task → Prop} [DecidablePred held]
    (tasks : m'.tasks.get? t = (m.tasks.get? t).map (fun task => if held task then task.takenBack else task))
    (inFlight : ∀ task, held task → task.status.inFlight = true)
    (loses : ∀ task, m.tasks.get? t = some task → held task → maxTaskAttempts ≤ task.attempt → lossy)
    (dispatches : m'.dispatches = m.dispatches) (history : m'.history = m.history) :
    ReflTransGen (Lease.Move (leaseRules t) lossy) (m.lease t) (m'.lease t) := by
  cases found : m.tasks.get? t with
  | none =>
    rw [found] at tasks
    rw [lease_congr (tasks.trans found.symm) dispatches history]
  | some task =>
    rw [found, Option.map_some] at tasks
    split at tasks
    · rename_i mine
      obtain ⟨status, _, attempt⟩ := lease_of_task found
      rw [lease_takenBack found tasks dispatches history]
      refine .single (.takeBack ?_ ?_)
      · rw [status, lease_held]
        exact inFlight task mine
      · rw [attempt]
        rcases Nat.lt_or_ge task.attempt maxTaskAttempts with early | last
        · exact .inl early
        · exact .inr (loses task found mine last)
    · rw [lease_congr (tasks.trans found.symm) dispatches history]

/-! ### Responses are recorded -/

theorem recordIfTerminal_of_terminal (response : Message) (found : m.tasks.get? t = some task)
    (ended : task.status.terminal = true) :
    m.recordIfTerminal t response = m.recordTaskResponse t response := by
  simp [recordIfTerminal, found, ended]

theorem recordIfTerminal_of_open (response : Message) (found : m.tasks.get? t = some task)
    (ongoing : task.status.terminal = false) :
    m.recordIfTerminal t response = m := by
  simp [recordIfTerminal, found, ongoing]

theorem lease_recordTaskResponse (m : Master) (t : TaskId) (response : Message) :
    (m.recordTaskResponse t response).lease t =
      { m.lease t with published := (m.lease t).published ++ [response] } := by
  simp [lease, recordTaskResponse, sentAttempts, recordedResponses, List.filterMap_append, Event.sentOf,
    Event.recordedOf]

theorem lease_recordIfTerminal_other (response : Message) (other : u ≠ t) :
    (m.recordIfTerminal u response).lease t = m.lease t := by
  unfold recordIfTerminal
  split
  · split
    · simp [lease, recordTaskResponse, sentAttempts, recordedResponses, List.filterMap_append, Event.sentOf,
        Event.recordedOf, other]
    · rfl
  · rfl

/-! ### A dispatch is back from its worker -/

theorem setHolder_setHolder (s : Lease.State WorkerId DispatchId Message) (d : DispatchId)
    (holder holder' : Option (Lease.Holder WorkerId Message)) :
    (s.setHolder d holder).setHolder d holder' = s.setHolder d holder' := by
  simp [Lease.State.setHolder]

theorem get?_condemnedWorker (m : Master) (w : WorkerId) (t : TaskId) :
    (m.condemnedWorker w).tasks.get? t = (m.tasks.get? t).map (Task.requeued w) :=
  Scheduler.get?_condemned m.scheduler w t

section Returning
variable {m m' : Master} {d : DispatchId} {t : TaskId} {pc : DispatchPc} {w : WorkerId} {attempt : Nat}
  {response : Message}

/-- The lease of `t` while dispatch `d` works on the attempt it captured. -/
def working (m : Master) (t : TaskId) (d : DispatchId) (w : WorkerId) (attempt : Nat) :
    Lease.State WorkerId DispatchId Message :=
  (m.lease t).setHolder d (some (.working w attempt))

variable {lossy : Prop} {task : Task} {u : TaskId}

theorem working_dropped (there : m.dispatches[d]? = some ⟨t, pc⟩) {after : DispatchPc}
    (outside : Dispatch.holder t ⟨t, after⟩ = none) :
    Lease.Move (leaseRules t) lossy (m.working t d w attempt) ((m.setDispatch d after).lease t) := by
  rw [lease_setDispatch t after there, outside, ← setHolder_setHolder _ d (some (.working w attempt))]
  exact .drop d (.inl ⟨w, attempt, Function.update_self ..⟩)

/-- The captured attempt is still the task's: the task is RUNNING on that worker. -/
theorem running_of_isCurrentAttempt (sound : Lease.Sound (leaseRules t) (m.working t d w attempt))
    (current : m.isCurrentAttempt t w attempt = true) :
    ∃ task, m.tasks.get? t = some task ∧ task.assignedWorkerId = some w ∧ task.attempt = attempt ∧
      task.status = .running := by
  obtain ⟨task, found, owner, same⟩ := isCurrentAttempt_iff.mp current
  obtain ⟨status, owned, number⟩ := lease_of_task found
  have attempts : (m.working t d w attempt).attempt = attempt := number.trans same
  have running := sound.running_of_current (d := d) (w := w)
    (by rw [attempts]; exact Function.update_self ..) (owned.trans owner)
  have isRunning : task.status.lease = .running := status.symm.trans running
  refine ⟨task, found, owner, same, ?_⟩
  cases h : task.status <;> simp [h, TaskStatus.lease] at isRunning ⊢

/-- What condemning the worker does to the task of the call that condemns it. -/
theorem lease_condemned_own (found : m.tasks.get? t = some task) (owner : task.assignedWorkerId = some w)
    (running : task.status = .running) (there : m.dispatches[d]? = some ⟨t, pc⟩) :
    (((m.condemnedWorker w).recordIfTerminal t response).setDispatch d (.returned response)).lease t =
      Lease.State.setHolder { m.lease t with
        status := if (leaseRules t).limit ≤ (m.lease t).attempt then .failed else .waiting
        owner := none
        published := if (leaseRules t).limit ≤ (m.lease t).attempt then (m.lease t).published ++ [response]
          else (m.lease t).published } d none := by
  have inFlight : task.status.inFlight = true := by rw [running]; rfl
  have taken : (m.condemnedWorker w).tasks.get? t = some task.takenBack := by
    rw [get?_condemnedWorker, found, Option.map_some, Task.requeued, if_pos ⟨owner, inFlight⟩]
  have lease : (m.condemnedWorker w).lease t = _ := lease_takenBack found taken rfl rfl
  have gone : Dispatch.holder t ⟨t, .returned response⟩ = none := by simp [Dispatch.holder]
  have number : (m.lease t).attempt = task.attempt := (lease_of_task found).2.2
  have still : ((m.condemnedWorker w).recordIfTerminal t response).dispatches[d]? = some ⟨t, pc⟩ := by
    rw [recordIfTerminal_dispatches]
    exact there
  rw [lease_setDispatch t _ still, gone]
  by_cases last : maxTaskAttempts ≤ task.attempt
  · have ended : task.takenBack.status.terminal = true := by simp [Task.takenBack, last, TaskStatus.terminal]
    have limit : (leaseRules t).limit ≤ (m.lease t).attempt := by rw [number]; exact last
    rw [recordIfTerminal_of_terminal response taken ended, lease_recordTaskResponse, lease]
    simp only [limit, if_true]
  · have ongoing : task.takenBack.status.terminal = false := by simp [Task.takenBack, last, TaskStatus.terminal]
    have limit : ¬ (leaseRules t).limit ≤ (m.lease t).attempt := by rw [number]; exact last
    rw [recordIfTerminal_of_open response taken ongoing, lease]
    simp only [limit, if_false]

/-- A call of the current attempt works on it, and a reply to the call belongs to it. -/
theorem working_current (found : m.tasks.get? t = some task)
    (belongs : response.requestId = attemptRequestId t task.attempt) :
    (m.working t d w task.attempt).holders d = some (.working w (m.working t d w task.attempt).attempt) ∧
      (leaseRules t).belongs response (m.working t d w task.attempt).attempt := by
  have number : (m.working t d w task.attempt).attempt = task.attempt := (lease_of_task found).2.2
  rw [number]
  exact ⟨Function.update_self .., belongs⟩

theorem Unreached.own (sound : Lease.Sound (leaseRules t) (m.working t d w attempt))
    (there : m.dispatches[d]? = some ⟨t, pc⟩) (belongs : response.requestId = attemptRequestId t attempt)
    (bad : response.isSuccess = false) (outcome : Unreached m d t w attempt response m') :
    ReflTransGen (Lease.Move (leaseRules t) lossy) (m.working t d w attempt) (m'.lease t) := by
  cases outcome with
  | late _ => exact .single (working_dropped there (by simp [Dispatch.holder]))
  | unknown _ _ => exact .single (working_dropped there (by simp [Dispatch.holder]))
  | condemned current _ =>
    obtain ⟨task, found, owner, rfl, running⟩ := running_of_isCurrentAttempt sound current
    obtain ⟨holder, speaks⟩ := working_current found belongs
    have back : ReflTransGen (Lease.Move (leaseRules t) lossy) (m.working t d w task.attempt) _ :=
      sound.giveBack holder ((lease_of_task found).2.1.trans owner) speaks bad
    rw [lease_condemned_own found owner running there]
    simp only [working, Lease.State.setHolder, Function.update_idem] at back ⊢
    exact back

theorem Unreached.other (apart : t ≠ u) (there : m.dispatches[d]? = some ⟨t, pc⟩)
    (loses : m.isCurrentAttempt t w attempt = true → ∀ task, m.tasks.get? u = some task →
      task.assignedWorkerId = some w → task.status.inFlight = true → maxTaskAttempts ≤ task.attempt → lossy)
    (outcome : Unreached m d t w attempt response m') :
    ReflTransGen (Lease.Move (leaseRules u) lossy) (m.lease u) (m'.lease u) := by
  cases outcome with
  | late _ => rw [lease_setDispatch_other _ there apart]
  | unknown _ _ => rw [lease_setDispatch_other _ there apart]
  | condemned current _ =>
    have still : ((m.condemnedWorker w).recordIfTerminal t response).dispatches[d]? = some ⟨t, pc⟩ := by
      rw [recordIfTerminal_dispatches]
      exact there
    rw [lease_setDispatch_other _ still apart, lease_recordIfTerminal_other response apart]
    refine lease_requeued (get?_condemnedWorker m w u) (fun _ held => held.2) ?_ rfl rfl
    intro task found held last
    exact loses current task found held.1 held.2 last

/-! ### A dispatch got its reply -/

theorem get?_finishedTask (m : Master) (t u : TaskId) (w : WorkerId) (response : Message) :
    (m.finishedTask t w response).tasks.get? u = if u = t then (m.tasks.get? u).map (fun task =>
      { task with status := if response.isSuccess then .completed else .failed }) else m.tasks.get? u := by
  have tasks : (m.finishedTask t w response).tasks = (m.scheduler.setTaskStatus t _).tasks :=
    Scheduler.released_tasks _ w
  rw [tasks, Scheduler.get?_setTaskStatus]

theorem lease_finishedTask (found : m.tasks.get? t = some task) :
    (m.finishedTask t w response).lease t = { m.lease t with
      status := if (leaseRules t).good response then .succeeded else .failed } := by
  have after : (m.finishedTask t w response).tasks.get? t =
      some { task with status := if response.isSuccess then .completed else .failed } := by
    rw [get?_finishedTask, if_pos rfl, found, Option.map_some]
  have status : (if response.isSuccess then TaskStatus.completed else TaskStatus.failed).lease =
      if (leaseRules t).good response then .succeeded else .failed := by
    cases success : response.isSuccess <;> simp [leaseRules, success, TaskStatus.lease]
  simp only [lease, sentAttempts, recordedResponses, after, found, Option.map_some, Option.getD_some,
    Option.bind_some, status]
  rfl

theorem lease_finishedTask_other (apart : t ≠ u) :
    (m.finishedTask t w response).lease u = m.lease u := by
  refine lease_congr ?_ rfl rfl
  rw [get?_finishedTask, if_neg (Ne.symm apart)]

theorem lease_finishDispatch (found : m.tasks.get? t = some task) (ended : task.status.terminal = true)
    (there : m.dispatches[d]? = some ⟨t, pc⟩) :
    Lease.Move (leaseRules t) lossy ((m.lease t).setHolder d (some (.settled response)))
      ((m.finishDispatch d t response).lease t) := by
  have gone : Dispatch.holder t ⟨t, .returned response⟩ = none := by simp [Dispatch.holder]
  have still : (m.recordTaskResponse t response).dispatches[d]? = some ⟨t, pc⟩ := there
  have publishes : Lease.Move (leaseRules t) lossy ((m.lease t).setHolder d (some (.settled response))) _ :=
    .publish (d := d) (Function.update_self ..)
  rw [finishDispatch, recordIfTerminal_of_terminal response found ended, lease_setDispatch t _ still, gone,
    lease_recordTaskResponse]
  simp only [Lease.State.setHolder, Function.update_idem] at publishes ⊢
  exact publishes

theorem lease_finishDispatch_other (apart : t ≠ u) (there : m.dispatches[d]? = some ⟨t, pc⟩) :
    (m.finishDispatch d t response).lease u = m.lease u := by
  have still : (m.recordIfTerminal t response).dispatches[d]? = some ⟨t, pc⟩ := by
    rw [recordIfTerminal_dispatches]
    exact there
  rw [finishDispatch, lease_setDispatch_other _ still apart, lease_recordIfTerminal_other response apart]

theorem lease_closeIfDraining (found : m.tasks.get? t = some task) (ended : task.status.terminal = true)
    (there : m.dispatches[d]? = some ⟨t, pc⟩) :
    ReflTransGen (Lease.Move (leaseRules t) lossy) ((m.lease t).setHolder d (some (.settled response)))
      ((m.closeIfDraining d t w attempt response).lease t) := by
  unfold closeIfDraining
  split
  · split
    · rename_i l _
      have still : (m.loseLink l).dispatches[d]? = some ⟨t, pc⟩ := there
      rw [lease_setDispatch t _ still]
      have holder : Dispatch.holder t ⟨t, .closing w attempt response⟩ = some (.settled response) := by
        simp [Dispatch.holder]
      rw [holder]
      exact .refl
    · exact .single (lease_finishDispatch found ended there)
  · exact .single (lease_finishDispatch found ended there)

theorem lease_closeIfDraining_other (apart : t ≠ u) (there : m.dispatches[d]? = some ⟨t, pc⟩) :
    (m.closeIfDraining d t w attempt response).lease u = m.lease u := by
  unfold closeIfDraining
  split
  · split
    · rename_i l _
      exact lease_setDispatch_other (m := m.loseLink l) _ there apart
    · exact lease_finishDispatch_other apart there
  · exact lease_finishDispatch_other apart there

/-- The task and its worker are settled in the name of the call's attempt. -/
theorem lease_settled (sound : Lease.Sound (leaseRules t) (m.working t d w attempt))
    (current : m.isCurrentAttempt t w attempt = true) (belongs : response.requestId = attemptRequestId t attempt) :
    Lease.Move (leaseRules t) lossy (m.working t d w attempt)
      (((m.finishedTask t w response).lease t).setHolder d (some (.settled response))) := by
  obtain ⟨task, found, owner, rfl, running⟩ := running_of_isCurrentAttempt sound current
  obtain ⟨holder, speaks⟩ := working_current found belongs
  have settles : Lease.Move (leaseRules t) lossy (m.working t d w task.attempt) _ :=
    .settle holder ((lease_of_task found).2.1.trans owner) speaks
  rw [lease_finishedTask found]
  simp only [working, Lease.State.setHolder, Function.update_idem] at settles ⊢
  exact settles

theorem lease_closed (sound : Lease.Sound (leaseRules t) (m.working t d w attempt))
    (there : m.dispatches[d]? = some ⟨t, pc⟩) (current : m.isCurrentAttempt t w attempt = true) :
    ReflTransGen (Lease.Move (leaseRules t) lossy)
      (((m.finishedTask t w response).lease t).setHolder d (some (.settled response)))
      (((m.finishedTask t w response).closeIfDraining d t w attempt response).lease t) := by
  obtain ⟨task, found, _, _, _⟩ := running_of_isCurrentAttempt sound current
  have after : (m.finishedTask t w response).tasks.get? t =
      some { task with status := if response.isSuccess then .completed else .failed } := by
    rw [get?_finishedTask, if_pos rfl, found, Option.map_some]
  have still : (m.finishedTask t w response).dispatches[d]? = some ⟨t, pc⟩ := there
  exact lease_closeIfDraining after (by simp only; split <;> rfl) still

theorem Settled.own (owned : m.Owned) (sound : Lease.Sound (leaseRules t) (m.working t d w attempt))
    (there : m.dispatches[d]? = some ⟨t, pc⟩) (belongs : response.requestId = attemptRequestId t attempt)
    (outcome : Settled m d t w attempt response m') :
    ReflTransGen (Lease.Move (leaseRules t) lossy) (m.working t d w attempt) (m'.lease t) := by
  cases outcome with
  | late _ => exact .single (working_dropped there (by simp [Dispatch.holder]))
  | malformed => exact .single (working_dropped there (by simp [Dispatch.holder]))
  | unknown status current unknown _ =>
    obtain ⟨task, found, owner, _, running⟩ := running_of_isCurrentAttempt sound current
    obtain ⟨v, mine, known⟩ := owned t task found (by rw [running]; rfl)
    rw [owner] at mine
    cases mine
    rw [unknown] at known
    cases known
  | settled current _ =>
    exact ReflTransGen.head (lease_settled sound current belongs) (lease_closed sound there current)

theorem Settled.other (apart : t ≠ u) (there : m.dispatches[d]? = some ⟨t, pc⟩)
    (outcome : Settled m d t w attempt response m') : m'.lease u = m.lease u := by
  cases outcome with
  | late _ => exact lease_setDispatch_other _ there apart
  | malformed => exact lease_setDispatch_other _ there apart
  | unknown status _ _ _ =>
    have still : ({ m with scheduler := m.scheduler.setTaskStatus t status } : Master).dispatches[d]? =
        some ⟨t, pc⟩ := there
    rw [lease_setDispatch_other _ still apart]
    refine lease_congr ?_ rfl rfl
    rw [tasks, Scheduler.get?_setTaskStatus, if_neg (Ne.symm apart)]
  | settled _ _ =>
    have still : (m.finishedTask t w response).dispatches[d]? = some ⟨t, pc⟩ := there
    rw [lease_closeIfDraining_other apart still, lease_finishedTask_other apart]

end Returning

/-! ### A dispatch starts -/

theorem get?_startedTask (m : Master) (t u : TaskId) :
    (m.startedTask t).tasks.get? u =
      if u = t then (m.tasks.get? u).map (fun task => { task with status := .running })
      else m.tasks.get? u :=
  Scheduler.get?_setTaskStatus m.scheduler t u .running

theorem lease_startedTask (found : m.tasks.get? t = some task) :
    (m.startedTask t).lease t = { m.lease t with status := .running } := by
  have after : (m.startedTask t).tasks.get? t = some { task with status := .running } := by
    rw [get?_startedTask, if_pos rfl, found, Option.map_some]
  simp only [lease, sentAttempts, recordedResponses, after, found, Option.map_some, Option.getD_some,
    Option.bind_some, TaskStatus.lease]
  rfl

theorem lease_startedTask_other (apart : t ≠ u) :
    (m.startedTask t).lease u = m.lease u := by
  refine lease_congr ?_ rfl rfl
  rw [get?_startedTask, if_neg (Ne.symm apart)]

section Starting
variable {m : Master} {d : DispatchId} {t : TaskId} {task : Task} {w : WorkerId} {lossy : Prop}

theorem spawned_no_holder (spawned : m.dispatches[d]? = some ⟨t, .spawned⟩) (u : TaskId) :
    (m.lease u).holders d = none := by
  simp [lease, spawned, Dispatch.holder]

theorem lease_claimed (spawned : m.dispatches[d]? = some ⟨t, .spawned⟩)
    (found : m.tasks.get? t = some task) (assigned : task.status = .assigned)
    (owner : task.assignedWorkerId = some w) :
    Lease.Move (leaseRules t) lossy (m.lease t) ((m.startedTask t).working t d w task.attempt) := by
  obtain ⟨status, owned, number⟩ := lease_of_task found
  have granted : (m.lease t).status = .granted := by rw [status, assigned]; rfl
  have claims : Lease.Move (leaseRules t) lossy (m.lease t) _ :=
    .claim false granted (owned.trans owner) (spawned_no_holder spawned t)
  simp only [Bool.false_eq_true, if_false] at claims
  rw [working, lease_startedTask found, ← number]
  exact claims

theorem lease_written (l : LinkId) (spawned : m.dispatches[d]? = some ⟨t, .spawned⟩)
    (found : m.tasks.get? t = some task) (assigned : task.status = .assigned)
    (owner : task.assignedWorkerId = some w) :
    Lease.Move (leaseRules t) lossy (m.lease t)
      (((m.startedTask t).writeTask d t task w l).lease t) := by
  obtain ⟨status, owned, number⟩ := lease_of_task found
  have granted : (m.lease t).status = .granted := by rw [status, assigned]; rfl
  have claims : Lease.Move (leaseRules t) lossy (m.lease t) _ :=
    .claim true granted (owned.trans owner) (spawned_no_holder spawned t)
  simp only [if_true] at claims
  have working : Dispatch.holder t ⟨t, .sending l w task.attempt false .waiting⟩ =
      some (.working w task.attempt) := by simp [Dispatch.holder]
  have told : Master.lease ({ m.startedTask t with
        history := (m.startedTask t).history ++ [Event.sent t task.attempt l] }.modifyLink l (fun link =>
          { link with pending := link.pending.insert (attemptRequestId t task.attempt) d })) t =
      { (m.startedTask t).lease t with sent := (m.lease t).sent ++ [task.attempt] } := by
    simp [lease, modifyLink, startedTask, sentAttempts, recordedResponses, List.filterMap_append,
      Event.sentOf, Event.recordedOf]
  have still : ({ m.startedTask t with
        history := (m.startedTask t).history ++ [Event.sent t task.attempt l] }.modifyLink l (fun link =>
          { link with pending := link.pending.insert (attemptRequestId t task.attempt) d })).dispatches[d]? =
      some ⟨t, .spawned⟩ := spawned
  rw [writeTask, lease_setDispatch t _ still, working, told, lease_startedTask found, ← number]
  exact claims

theorem lease_written_other {l : LinkId} {u : TaskId} (apart : t ≠ u)
    (spawned : m.dispatches[d]? = some ⟨t, .spawned⟩) :
    (m.writeTask d t task w l).lease u = m.lease u := by
  have still : ({ m with history := m.history ++ [Event.sent t task.attempt l] }.modifyLink l (fun link =>
      { link with pending := link.pending.insert (attemptRequestId t task.attempt) d })).dispatches[d]? =
      some ⟨t, .spawned⟩ := spawned
  rw [writeTask, lease_setDispatch_other _ still apart]
  simp [lease, modifyLink, sentAttempts, recordedResponses, List.filterMap_append, Event.sentOf,
    Event.recordedOf, apart]

end Starting

/-! ### Which steps leave a finished task without a response -/

/-- `dispatch_assigned_task` goes to the branch of an unreachable worker at once. -/
def unsendable (m : Master) (t : TaskId) (task : Task) (w : WorkerId) (depth : Nat) : Bool :=
  m.connections.get? w = none || refused depth (taskRequest t task)

/-- The calls of `requeue_tasks_for_worker` a step makes: the worker, and the
task of the dispatch that makes the call. -/
def requeueCalls (m : Master) : Action → List (WorkerId × Option TaskId)
  | .monitorTick _ now =>
    ((m.workers.getStaleWorkers heartbeatTimeout now).1).map (fun w => (w, none))
  | .startDispatch d depth =>
    match m.dispatches[d]? with
    | some ⟨t, .spawned⟩ =>
      match m.tasks.get? t with
      | some task =>
        match task.assignedWorkerId with
        | some w => if task.status = .assigned ∧ m.unsendable t task w depth then [(w, some t)] else []
        | none => []
      | none => []
    | _ => []
  | .sendFails d _ =>
    match m.dispatches[d]? with
    | some ⟨t, .sending _ w attempt _ _⟩ => if m.isCurrentAttempt t w attempt then [(w, some t)] else []
    | _ => []
  | .resumeDispatch d =>
    match m.dispatches[d]? with
    | some ⟨t, .sending _ w attempt _ (.failed _)⟩ =>
      if m.isCurrentAttempt t w attempt then [(w, some t)] else []
    | _ => []
  | _ => []

/-- The tasks a step may finish without a response: those out of attempts that
another dispatch or the failure monitor requeues, and the settled task of a
dispatch whose closing of the connection raises. -/
def strandedBy (m : Master) (a : Action) : List TaskId :=
  (match a with
    | .abortDispatch d =>
      match m.dispatches[d]? with
      | some ⟨t, .closing _ _ _⟩ => [t]
      | _ => []
    | _ => []) ++
  (m.tasks.entries.filter (fun e => e.2.status.inFlight && maxTaskAttempts ≤ e.2.attempt &&
    (m.requeueCalls a).any (fun call => e.2.assignedWorkerId = some call.1 && call.2 ≠ some e.1))).map Prod.fst

theorem mem_strandedBy_of_call {caller : Option TaskId} (found : m.tasks.get? t = some task)
    (inFlight : task.status.inFlight = true) (last : maxTaskAttempts ≤ task.attempt)
    (owner : task.assignedWorkerId = some w) (call : (w, caller) ∈ m.requeueCalls a) (foreign : caller ≠ some t) :
    t ∈ m.strandedBy a := by
  refine List.mem_append_right _ (List.mem_map.mpr ⟨(t, task), List.mem_filter.mpr ⟨?_, ?_⟩, rfl⟩)
  · exact Dict.mem_entries.mpr found
  · simp only [Bool.and_eq_true, inFlight, decide_eq_true_eq, last, List.any_eq_true, true_and]
    exact ⟨(w, caller), call, owner, foreign⟩

/-! ### Every step moves every lease -/

theorem get?_submittedTask (m : Master) (t u : TaskId) (taskType : String) (payload : List (Key × Val)) :
    (m.submittedTask t taskType payload).tasks.get? u =
      if u = t then some ⟨taskType, payload, .pending, none, 0⟩ else m.tasks.get? u :=
  Dict.get?_insert m.tasks t u _

theorem lease_submittedTask {taskType : String} {payload : List (Key × Val)} (absent : m.tasks.get? t = none)
    (u : TaskId) :
    (m.submittedTask t taskType payload).lease u = m.lease u := by
  by_cases same : u = t
  · subst same
    simp only [lease, get?_submittedTask, if_true, absent]
    rfl
  · exact lease_congr (by rw [get?_submittedTask, if_neg same]) rfl rfl

theorem holder_failReply (t : TaskId) (reason : String) (dispatch : Dispatch) :
    (dispatch.failReply reason).holder t = dispatch.holder t := by
  unfold Dispatch.failReply
  split
  · rename_i pc
    simp [Dispatch.holder, pc]
  · rfl

theorem lease_cleanup (m : Master) (l : LinkId) (link : Link) (t : TaskId) :
    (m.cleanup l link).lease t = m.lease t := by
  have history : (m.cleanup l link).history = m.history := by
    simp only [cleanup]
    split
    · split <;> rfl
    · rfl
  have holders : ∀ d : DispatchId, ((m.cleanup l link).dispatches[d]?).bind (Dispatch.holder t) =
      (m.dispatches[d]?).bind (Dispatch.holder t) := by
    intro d
    have failed : (m.cleanup l link).dispatches[d]? = (m.dispatches[d]?).map (fun dispatch =>
        if d ∈ link.pending.values then dispatch.failReply "Worker connection closed" else dispatch) := by
      rw [← dispatches_failPending]
      simp only [cleanup]
      split
      · split <;> rfl
      · rfl
    rw [failed]
    cases m.dispatches[d]? with
    | none => rfl
    | some dispatch =>
      simp only [Option.map_some, Option.bind_some]
      split
      · exact holder_failReply t _ dispatch
      · rfl
  simp only [lease, sentAttempts, recordedResponses, cleanup_tasks, history, holders]

theorem lease_install (m : Master) (l : LinkId) (w : WorkerId) (t : TaskId) :
    (m.install l w).lease t = m.lease t := by
  simp only [install]
  split
  · split <;> rfl
  · rfl

theorem lease_answered (m : Master) (l : LinkId) (message response : Message) (ws : WorkerManager)
    (now : Time) (t : TaskId) : (m.answered l message response ws now).lease t = m.lease t := by
  have quiet : ∀ event ∈ m.registrationEvents l message now,
      event.sentOf t = none ∧ event.recordedOf t = none := by
    intro event member
    unfold registrationEvents at member
    split at member
    · cases member
    · split at member
      · obtain rfl := List.mem_singleton.mp member
        exact ⟨rfl, rfl⟩
      · cases member
  have sent : (m.registrationEvents l message now).filterMap (Event.sentOf t) = [] :=
    List.filterMap_eq_nil_iff.mpr (fun event member => (quiet event member).1)
  have recorded : (m.registrationEvents l message now).filterMap (Event.recordedOf t) = [] :=
    List.filterMap_eq_nil_iff.mpr (fun event member => (quiet event member).2)
  simp [answered, setHandler, modifyLink, lease, sentAttempts, recordedResponses, List.filterMap_append,
    sent, recorded]

/-- Every lease is sound: the state part of the invariant of all runs. -/
structure Fenced (m : Master) : Prop where
  base : m.Base
  leases : ∀ t, Lease.Sound (leaseRules t) (m.lease t)

section Matching
variable {m m' : Master} {d : DispatchId} {t u : TaskId} {l : LinkId} {w : WorkerId} {attempt : Nat}
  {drained : Bool} {reply : Reply} {response : Message} {lossy : Prop}

theorem working_of_sending (sending : m.dispatches[d]? = some ⟨t, .sending l w attempt drained reply⟩) :
    m.working t d w attempt = m.lease t :=
  setHolder_same (by simp [lease, sending, Dispatch.holder])

/-- The branch of an unreachable worker, for the task of the call and for the others. -/
theorem lease_unreachable {n : Master} {pc : DispatchPc} {reason : String}
    (sound : Lease.Sound (leaseRules t) (n.working t d w attempt))
    (there : n.dispatches[d]? = some ⟨t, pc⟩)
    (own : t = u → ReflTransGen (Lease.Move (leaseRules u) lossy) (m.lease u) (n.working t d w attempt))
    (other : t ≠ u → n.lease u = m.lease u)
    (loses : t ≠ u → n.isCurrentAttempt t w attempt = true → ∀ task, n.tasks.get? u = some task →
      task.assignedWorkerId = some w → task.status.inFlight = true → maxTaskAttempts ≤ task.attempt → lossy) :
    ReflTransGen (Lease.Move (leaseRules u) lossy) (m.lease u)
      ((n.unreachable d t w attempt reason).lease u) := by
  have outcome := unreachable_outcome n d t w attempt reason
  by_cases same : t = u
  · subst same
    exact (own rfl).trans (Unreached.own sound there rfl rfl outcome)
  · rw [← other same]
    exact Unreached.other same there (loses same) outcome

theorem Fenced.working (fenced : m.Fenced)
    (sending : m.dispatches[d]? = some ⟨t, .sending l w attempt drained reply⟩) :
    Lease.Sound (leaseRules t) (m.working t d w attempt) := by
  rw [working_of_sending sending]
  exact fenced.leases t

/-- A call on its way that fails for its link. -/
theorem lease_lost (fenced : m.Fenced) {reason : String}
    (sending : m.dispatches[d]? = some ⟨t, .sending l w attempt drained reply⟩)
    (loses : t ≠ u → m.isCurrentAttempt t w attempt = true → ∀ task, m.tasks.get? u = some task →
      task.assignedWorkerId = some w → task.status.inFlight = true → maxTaskAttempts ≤ task.attempt → lossy) :
    ReflTransGen (Lease.Move (leaseRules u) lossy) (m.lease u)
      (((m.popPending l t attempt).unreachable d t w attempt reason).lease u) := by
  refine lease_unreachable (n := m.popPending l t attempt) (fenced.working sending) sending ?_ (fun _ => rfl) loses
  rintro rfl
  rw [← working_of_sending sending]
  exact .refl

end Matching

theorem call_of_unsendable {depth : Nat} (spawned : m.dispatches[d]? = some ⟨t, .spawned⟩)
    (found : m.tasks.get? t = some task) (assigned : task.status = .assigned) (owner : task.assignedWorkerId = some w)
    (cannot : m.unsendable t task w depth = true) : (w, some t) ∈ m.requeueCalls (.startDispatch d depth) := by
  simp [requeueCalls, spawned, found, assigned, owner, cannot]

theorem call_of_sendLost {l : LinkId} {attempt : Nat} {reply : Reply} (reason : String)
    (sending : m.dispatches[d]? = some ⟨t, .sending l w attempt false reply⟩)
    (current : m.isCurrentAttempt t w attempt = true) : (w, some t) ∈ m.requeueCalls (.sendFails d reason) := by
  simp [requeueCalls, sending, current]

theorem call_of_replyLost {l : LinkId} {attempt : Nat} {reason : String}
    (sending : m.dispatches[d]? = some ⟨t, .sending l w attempt true (.failed reason)⟩)
    (current : m.isCurrentAttempt t w attempt = true) : (w, some t) ∈ m.requeueCalls (.resumeDispatch d) := by
  simp [requeueCalls, sending, current]

/-- A call that cannot be sent: its task was started, and the worker is given up. -/
theorem lease_unsendable {n : Master} {depth : Nat} {reason : String} (fenced : m.Fenced)
    (spawned : m.dispatches[d]? = some ⟨t, .spawned⟩) (found : m.tasks.get? t = some task)
    (assigned : task.status = .assigned) (owner : task.assignedWorkerId = some w)
    (cannot : m.unsendable t task w depth = true) (tasks : n.tasks = (m.startedTask t).tasks)
    (dispatches : n.dispatches = m.dispatches) (history : n.history = m.history) :
    ReflTransGen (Lease.Move (leaseRules u) (u ∈ m.strandedBy (.startDispatch d depth))) (m.lease u)
      ((n.unreachable d t w task.attempt reason).lease u) := by
  have started (v : TaskId) : n.lease v = (m.startedTask t).lease v := lease_congr (by rw [tasks]) dispatches history
  have claims : Lease.Move (leaseRules t) (u ∈ m.strandedBy (.startDispatch d depth)) (m.lease t)
      (n.working t d w task.attempt) := by
    rw [working, started]
    exact lease_claimed spawned found assigned owner
  refine lease_unreachable ((fenced.leases t).step claims) (dispatches ▸ spawned) ?_ ?_ ?_
  · rintro rfl
    exact .single claims
  · intro apart
    rw [started, lease_startedTask_other apart]
  · intro apart _ other there held inFlight last
    rw [tasks, get?_startedTask, if_neg (Ne.symm apart)] at there
    exact mem_strandedBy_of_call there inFlight last held (call_of_unsendable spawned found assigned owner cannot)
      (by simpa using apart)

section Calls
variable {m : Master} {d : DispatchId} {w : WorkerId} {caller : Option TaskId}

theorem unsendable_of_call {depth : Nat} (call : (w, caller) ∈ m.requeueCalls (.startDispatch d depth)) :
    ∃ t task, m.dispatches[d]? = some ⟨t, .spawned⟩ ∧ m.tasks.get? t = some task ∧ task.assignedWorkerId = some w ∧
      task.status = .assigned := by
  simp only [requeueCalls] at call
  split at call
  · rename_i t spawned
    split at call
    · rename_i task found
      split at call
      · rename_i v owner
        split at call
        · rename_i assigned
          obtain ⟨rfl, -⟩ := Prod.mk.inj (List.mem_singleton.mp call)
          exact ⟨t, task, spawned, found, owner, assigned.1⟩
        · cases call
      · cases call
    · cases call
  · cases call

theorem sendLost_of_call {reason : String} (call : (w, caller) ∈ m.requeueCalls (.sendFails d reason)) :
    ∃ t l attempt drained reply, m.dispatches[d]? = some ⟨t, .sending l w attempt drained reply⟩ ∧
      m.isCurrentAttempt t w attempt = true := by
  simp only [requeueCalls] at call
  split at call
  · rename_i t l v attempt drained reply sending
    split at call
    · rename_i current
      obtain ⟨rfl, -⟩ := Prod.mk.inj (List.mem_singleton.mp call)
      exact ⟨t, l, attempt, drained, reply, sending, current⟩
    · cases call
  · cases call

theorem replyLost_of_call (call : (w, caller) ∈ m.requeueCalls (.resumeDispatch d)) :
    ∃ t l attempt drained reason, m.dispatches[d]? = some ⟨t, .sending l w attempt drained (.failed reason)⟩ ∧
      m.isCurrentAttempt t w attempt = true := by
  simp only [requeueCalls] at call
  split at call
  · rename_i t l v attempt drained reason sending
    split at call
    · rename_i current
      obtain ⟨rfl, -⟩ := Prod.mk.inj (List.mem_singleton.mp call)
      exact ⟨t, l, attempt, drained, reason, sending, current⟩
    · cases call
  · cases call

end Calls

theorem Micro.leases {mid : Master} (fenced : m.Fenced) (move : Micro m a mid) (u : TaskId) :
    ReflTransGen (Lease.Move (leaseRules u) (u ∈ m.strandedBy a)) (m.lease u) (mid.lease u) := by
  have same : mid.lease u = m.lease u →
      ReflTransGen (Lease.Move (leaseRules u) (u ∈ m.strandedBy a)) (m.lease u) (mid.lease u) := by
    intro equal
    rw [equal]
  cases move with
  | submit absent => exact same (lease_submittedTask absent u)
  | cleanup _ _ _ _ => exact same (lease_cleanup m _ _ u)
  | resolve _ _ sending => exact same (lease_setDispatch_same sending rfl)
  | handle _ _ _ _ => exact same (lease_answered m _ _ _ _ _ u)
  | install _ _ => exact same (lease_install m _ _ u)
  | startRaises spawned _ =>
    refine same (lease_setDispatch_same spawned ?_)
    simp [Dispatch.holder]
  | orphan _ found assigned owner =>
    obtain ⟨w, mine, _⟩ := fenced.base.owned _ _ found (by rw [assigned]; rfl)
    rw [owner] at mine
    cases mine
  | unreached spawned found assigned owner absent =>
    exact lease_unsendable fenced spawned found assigned owner (by simp [unsendable, absent]) rfl rfl rfl
  | unencodable spawned found assigned owner _ failure =>
    exact lease_unsendable fenced spawned found assigned owner (by simp [unsendable, refused, failure])
      rfl rfl rfl
  | @overflow d t task w l _ spawned found assigned owner _ _ =>
    have popped : ((m.startedTask t).popPending l t task.attempt).dispatches[d]? = some ⟨t, .spawned⟩ := spawned
    by_cases mine : t = u
    · subst mine
      refine .trans (.single (lease_claimed spawned found assigned owner)) (.single ?_)
      exact working_dropped popped (by simp [Dispatch.holder])
    · exact same ((lease_setDispatch_other _ popped mine).trans (lease_startedTask_other mine))
  | @write d t task w l _ spawned found assigned owner _ =>
    by_cases mine : t = u
    · subst mine
      exact .single (lease_written l spawned found assigned owner)
    · have started : (m.startedTask t).dispatches[d]? = some ⟨t, .spawned⟩ := spawned
      exact same ((lease_written_other mine started).trans (lease_startedTask_other mine))
  | drained sending => exact same (lease_setDispatch_same sending rfl)
  | @sendLost d t l link w attempt reply reason sending _ _ =>
    refine lease_lost fenced sending ?_
    intro apart current other there held inFlight last
    exact mem_strandedBy_of_call there inFlight last held (call_of_sendLost reason sending current)
      (by simpa using apart)
  | @replyLost d t l w attempt reason sending =>
    refine lease_lost fenced sending ?_
    intro apart current other there held inFlight last
    exact mem_strandedBy_of_call there inFlight last held (call_of_replyLost sending current) (by simpa using apart)
  | @replied d t l w attempt response sending =>
    have popped : (m.popPending l t attempt).dispatches[d]? =
        some ⟨t, .sending l w attempt true (.message response)⟩ := sending
    have outcome := handleReply_outcome (m.popPending l t attempt) d t w attempt response
    by_cases mine : t = u
    · subst mine
      have sound := fenced.leases t
      rw [← working_of_sending sending] at sound ⊢
      exact Settled.own (m := m.popPending l t attempt) fenced.base.owned sound popped
        (fenced.base.wired.replies d t l w attempt true response sending) outcome
    · exact same (Settled.other (m := m.popPending l t attempt) mine popped outcome)
  | @abort d t l w attempt drained reply sending =>
    have popped : (m.popPending l t attempt).dispatches[d]? =
        some ⟨t, .sending l w attempt drained reply⟩ := sending
    by_cases mine : t = u
    · subst mine
      rw [← working_of_sending sending]
      exact .single (working_dropped popped (by simp [Dispatch.holder]))
    · exact same (lease_setDispatch_other _ popped mine)
  | @finish d t w attempt response closing =>
    by_cases mine : t = u
    · subst mine
      have holder : (m.lease t).holders d = some (.settled response) := by
        simp [lease, closing, Dispatch.holder]
      obtain ⟨⟨ended, _⟩, _⟩ := (fenced.leases t).settled d response holder
      rcases found : m.tasks.get? t with _ | task
      · simp [lease, found, Lease.Status.final] at ended
      · rw [(lease_of_task found).1, lease_final] at ended
        rw [← setHolder_same holder]
        exact .single (lease_finishDispatch found ended closing)
    · exact same (lease_finishDispatch_other mine closing)
  | @abandon d t w attempt response closing =>
    by_cases mine : t = u
    · subst mine
      have stranded : t ∈ m.strandedBy (.abortDispatch d) := by simp [strandedBy, closing]
      rw [lease_setDispatch t _ closing]
      have gone : Dispatch.holder t ⟨t, .raised⟩ = none := by simp [Dispatch.holder]
      rw [gone]
      exact .single (.drop d (.inr stranded))
    · exact same (lease_setDispatch_other _ closing mine)
  | @stale i now waiting =>
    refine lease_requeued (Scheduler.get?_condemnStale m.scheduler heartbeatTimeout now u)
      (fun _ held => held.2) ?_ rfl rfl
    rintro task found ⟨⟨w, old, owner⟩, inFlight⟩ last
    have call : (w, none) ∈ m.requeueCalls (.monitorTick i now) := List.mem_map.mpr ⟨w, old, rfl⟩
    exact mem_strandedBy_of_call found inFlight last owner call (Option.some_ne_none u).symm
  | skip | accept | lose | handler | clear => exact same rfl

theorem Loop.leases (loop : Loop m m') (u : TaskId) :
    ReflTransGen (Lease.Move (leaseRules u) lossy) (m.lease u) (m'.lease u) := by
  cases loop with
  | @grant t w task worker found pending _ _ =>
    by_cases mine : t = u
    · subst mine
      obtain ⟨status, owner, attempt⟩ := lease_of_task found
      have grants : Lease.Move (leaseRules t) lossy (m.lease t) _ := .grant w (by rw [status, pending]; rfl)
      have after : Master.lease { m with scheduler := m.scheduler.grant t w } t =
          { m.lease t with status := .granted, owner := some w, attempt := (m.lease t).attempt + 1 } := by
        have granted : (m.scheduler.grant t w).tasks.get? t = some
            { task with attempt := task.attempt + 1, assignedWorkerId := some w, status := .assigned } := by
          rw [Scheduler.get?_grant, if_pos rfl]
          exact congrArg _ found
        simp only [lease, tasks, granted, found, sentAttempts, recordedResponses, Option.map_some,
          Option.getD_some, Option.bind_some, TaskStatus.lease]
      rw [after]
      exact .single grants
    · have equal : Master.lease { m with scheduler := m.scheduler.grant t w } u = m.lease u := by
        refine lease_congr ?_ rfl rfl
        rw [tasks, Scheduler.get?_grant, if_neg (Ne.symm mine)]
      rw [equal]
  | spawn batch =>
    have holders : (fun d : DispatchId => ((m.spawn batch).dispatches[d]?).bind (Dispatch.holder u)) =
        fun d : DispatchId => (m.dispatches[d]?).bind (Dispatch.holder u) := by
      funext d
      cases before : m.dispatches[d]? with
      | some dispatch => rw [spawn_keeps before]
      | none =>
        cases after : (m.spawn batch).dispatches[d]? with
        | none => rfl
        | some dispatch =>
          rcases spawned_lookup after with there | ⟨fresh, _⟩
          · rw [before] at there
            cases there
          · simp [Dispatch.holder, fresh]
    have equal : (m.spawn batch).lease u = m.lease u := by
      simp only [lease, holders]
      rfl
    rw [equal]
  | loops _ _ _ => exact .refl

/-- One step of the master is a sequence of moves of the lease of every task. -/
theorem step_leases (fenced : m.Fenced) (taken : m.step a = some m') (u : TaskId) :
    ReflTransGen (Lease.Move (leaseRules u) (u ∈ m.strandedBy a)) (m.lease u) (m'.lease u) := by
  obtain ⟨mid, move, loops⟩ := step_split taken
  refine (move.leases fenced u).trans ?_
  clear taken
  induction loops with
  | refl => exact .refl
  | tail _ loop ih => exact ih.trans (loop.leases u)

theorem lease_initial (t : TaskId) : initial.lease t = Lease.State.initial := by
  have holders : (fun d : DispatchId => (initial.dispatches[d]?).bind (Dispatch.holder t)) = fun _ => none := by
    funext d
    rfl
  simp only [lease, holders]
  rfl

theorem Fenced.step (fenced : m.Fenced) (taken : m.step a = some m') :
    m'.Fenced :=
  ⟨fenced.base.step taken, fun t => (fenced.leases t).run (step_leases fenced taken t)⟩

theorem fenced_initial : initial.Fenced :=
  ⟨base_initial, fun t => by rw [lease_initial]; exact Lease.sound_initial (leaseRules t)⟩

theorem Fenced.run (fenced : m.Fenced) (run : Steps Master.step ok m m') : m'.Fenced :=
  run.invariant fenced (fun _ _ _ fenced _ taken => fenced.step taken)

theorem fenced_of_run (run : Steps step ok initial m) : m.Fenced :=
  fenced_initial.run run

/-- The master refines the fenced lease of every task: a run is a run of moves,
and of moves that lose nothing when no step of it strands a task. -/
theorem run_leases (fenced : m.Fenced) (run : Steps step ok m m') (u : TaskId)
    (loses : ∀ n a, ok n a → u ∈ n.strandedBy a → lossy) :
    ReflTransGen (Lease.Move (leaseRules u) lossy) (m.lease u) (m'.lease u) := by
  refine run.simulate (fun n => n.lease u) (J := Fenced) ?_ ?_
  · intro n before
    exact before.invariant fenced (fun _ _ _ kept _ taken => kept.step taken)
  · intro n a n' kept good taken
    exact ReflTransGen.mono (fun _ _ move => Lease.Move.mono (loses n a good) move) _ _
      (step_leases kept taken u)

end Master
end DistributedCompute
