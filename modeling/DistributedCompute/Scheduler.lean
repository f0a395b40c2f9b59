import DistributedCompute.WorkerManager

/-! `master/scheduler.py`. Every method returns what it returned or raised
together with the state it left, because a Python method that raises keeps the
mutations it already made. A task record is stored under its task_id. -/
namespace DistributedCompute
open Py

def maxTaskAttempts : Nat := 3

inductive TaskStatus
  | pending
  | assigned
  | running
  | completed
  | failed
  deriving DecidableEq, Repr

def TaskStatus.name : TaskStatus → String
  | .pending => "PENDING"
  | .assigned => "ASSIGNED"
  | .running => "RUNNING"
  | .completed => "COMPLETED"
  | .failed => "FAILED"

def TaskStatus.inFlight : TaskStatus → Bool
  | .assigned | .running => true
  | _ => false

def TaskStatus.terminal : TaskStatus → Bool
  | .completed | .failed => true
  | _ => false

structure Task where
  taskType : String
  payload : List (Key × Val)
  status : TaskStatus
  assignedWorkerId : Option WorkerId
  attempt : Nat
  deriving Repr

structure Scheduler where
  workers : WorkerManager
  tasks : Dict TaskId Task

inductive SchedulerError
  | valueError (text : String)
  | taskNotFound (text : String)
  | noAvailableWorker (text : String)
  | workerNotFound (text : String)
  deriving DecidableEq, Repr

def unknownTask (t : TaskId) : SchedulerError := .taskNotFound s!"Unknown task: {t}"

namespace Scheduler

def submitTask (s : Scheduler) (t : TaskId) (taskType : String) (payload : List (Key × Val)) :
    Except SchedulerError Task × Scheduler :=
  if t = "" then (.error (.valueError "task_id must be a non-empty string"), s)
  else if taskType = "" then (.error (.valueError "task_type must be a non-empty string"), s)
  else if s.tasks.contains t then (.error (.valueError s!"Task already exists: {t}"), s)
  else
    let task : Task := ⟨taskType, payload, .pending, none, 0⟩
    (.ok task, { s with tasks := s.tasks.insert t task })

/-- The mutations of a successful `assign_task`: task `t` goes to worker `w`. -/
def grant (s : Scheduler) (t : TaskId) (w : WorkerId) : Scheduler where
  workers := s.workers.setStatus w .busy
  tasks := s.tasks.modify t (fun task =>
    { task with attempt := task.attempt + 1, assignedWorkerId := some w, status := .assigned })

def idleWorker? (s : Scheduler) : Option WorkerId :=
  (s.workers.entries.find? (fun e => e.2.status = .idle)).map Prod.fst

def assignTask (s : Scheduler) (t : TaskId) : Except SchedulerError Unit × Scheduler :=
  match s.tasks.get? t with
  | none => (.error (unknownTask t), s)
  | some task =>
    if task.status ≠ .pending then
      (.error (.valueError s!"Task cannot be assigned from status: {task.status.name}"), s)
    else
      match s.idleWorker? with
      | none => (.error (.noAvailableWorker "No idle worker available"), s)
      | some w => (.ok (), s.grant t w)

/-- `task_ids is None or task_id in task_ids`. -/
def inScope (scope : Option (List TaskId)) (t : TaskId) : Bool :=
  match scope with
  | none => true
  | some ids => t ∈ ids

def pendingTask? (s : Scheduler) (scope : Option (List TaskId)) : Option TaskId :=
  (s.tasks.entries.find? (fun e => e.2.status = .pending && inScope scope e.1)).map Prod.fst

/-- The oldest PENDING task in scope, assigned; `none` when there is no such
task or `assign_task` finds no idle worker. -/
def assignNextPendingTask (s : Scheduler) (scope : Option (List TaskId)) : Option TaskId × Scheduler :=
  match s.pendingTask? scope with
  | none => (none, s)
  | some t =>
    match s.assignTask t with
    | (.ok (), s') => (some t, s')
    | (.error _, s') => (none, s')

/-- `while True: task = assign_next_pending_task(scope); if task is None: break`. -/
def assignLoop (scope : Option (List TaskId)) : Nat → Scheduler → List TaskId × Scheduler
  | 0, s => ([], s)
  | fuel + 1, s =>
    match s.assignNextPendingTask scope with
    | (none, s') => ([], s')
    | (some t, s') => (t :: (assignLoop scope fuel s').1, (assignLoop scope fuel s').2)

/-- Each assignment uses up one PENDING task, so this fuel outlasts the loop. -/
def assignAll (s : Scheduler) (scope : Option (List TaskId)) : List TaskId × Scheduler :=
  assignLoop scope (s.tasks.entries.length + 1) s

def setTaskStatus (s : Scheduler) (t : TaskId) (status : TaskStatus) : Scheduler :=
  { s with tasks := s.tasks.modify t (fun task => { task with status }) }

def startTask (s : Scheduler) (t : TaskId) : Except SchedulerError Unit × Scheduler :=
  match s.tasks.get? t with
  | none => (.error (unknownTask t), s)
  | some task =>
    if task.status ≠ .assigned then
      (.error (.valueError s!"Task cannot start from status: {task.status.name}"), s)
    else (.ok (), s.setTaskStatus t .running)

def setWorkerStatus (s : Scheduler) (w : WorkerId) (status : WorkerStatus) : Scheduler :=
  { s with workers := s.workers.setStatus w status }

/-- `worker_manager.update_status` on the shared registry. -/
def updateWorkerStatus (s : Scheduler) (w : WorkerId) (status : WorkerStatus) :
    Except SchedulerError Unit × Scheduler :=
  match s.workers.updateStatus w status with
  | .error text => (.error (.workerNotFound text), s)
  | .ok _ => (.ok (), s.setWorkerStatus w status)

/-- A DRAINING worker is left DRAINING; every other one goes back to IDLE. -/
def releaseWorker (s : Scheduler) : Option WorkerId → Except SchedulerError Unit × Scheduler
  | none => (.ok (), s)
  | some w =>
    if s.workers.statusOf w = some .draining then (.ok (), s)
    else s.updateWorkerStatus w .idle

def completeTask (s : Scheduler) (t : TaskId) : Except SchedulerError Unit × Scheduler :=
  match s.tasks.get? t with
  | none => (.error (unknownTask t), s)
  | some task =>
    if task.status.inFlight then
      (s.setTaskStatus t .completed).releaseWorker task.assignedWorkerId
    else (.error (.valueError s!"Task cannot complete from status: {task.status.name}"), s)

/-- No status check: the task becomes FAILED from any status. -/
def failTask (s : Scheduler) (t : TaskId) : Except SchedulerError Unit × Scheduler :=
  match s.tasks.get? t with
  | none => (.error (unknownTask t), s)
  | some task => (s.setTaskStatus t .failed).releaseWorker task.assignedWorkerId

end Scheduler

/-- A task its worker lost: PENDING again, or FAILED when no attempt is left. -/
def Task.takenBack (task : Task) : Task :=
  { task with
    assignedWorkerId := none
    status := if maxTaskAttempts ≤ task.attempt then .failed else .pending }

/-- What `requeue_tasks_for_worker(w)` does to one task. -/
def Task.requeued (w : WorkerId) (task : Task) : Task :=
  if task.assignedWorkerId = some w ∧ task.status.inFlight = true then task.takenBack else task

namespace Scheduler

def requeueTasksForWorker (s : Scheduler) (w : WorkerId) : List TaskId × Scheduler :=
  ((s.tasks.entries.filter (fun e =>
      e.2.assignedWorkerId = some w ∧ e.2.status.inFlight = true ∧ e.2.attempt < maxTaskAttempts)).map
      Prod.fst,
    { s with tasks := s.tasks.mapValues (fun _ task => task.requeued w) })

/-- `update_status(w, FAILED)` followed by `requeue_tasks_for_worker(w)`. -/
def condemn (s : Scheduler) (w : WorkerId) : Except SchedulerError Unit × Scheduler :=
  match s.updateWorkerStatus w .failed with
  | (.error e, s') => (.error e, s')
  | (.ok (), s') => (.ok (), (s'.requeueTasksForWorker w).2)

/-- The stale workers are all marked FAILED first, then requeued one by one. -/
def condemnStale (s : Scheduler) (timeout now : Time) : List WorkerId × Scheduler :=
  let stale := (s.workers.getStaleWorkers timeout now).1
  (stale, stale.foldl (fun acc w => (acc.requeueTasksForWorker w).2)
    { s with workers := (s.workers.getStaleWorkers timeout now).2 })

/-! ### What each operation does to one task and one worker -/

@[simp] theorem grant_workers (s : Scheduler) (t : TaskId) (w : WorkerId) :
    (s.grant t w).workers = s.workers.setStatus w .busy := rfl

@[simp] theorem setTaskStatus_workers (s : Scheduler) (t : TaskId) (status : TaskStatus) :
    (s.setTaskStatus t status).workers = s.workers := rfl

@[simp] theorem setWorkerStatus_workers (s : Scheduler) (w : WorkerId) (status : WorkerStatus) :
    (s.setWorkerStatus w status).workers = s.workers.setStatus w status := rfl

@[simp] theorem requeue_workers (s : Scheduler) (w : WorkerId) :
    (s.requeueTasksForWorker w).2.workers = s.workers := rfl

theorem contains_setStatus (ws : WorkerManager) (w v : WorkerId) (status : WorkerStatus) :
    (ws.setStatus w status).contains v = ws.contains v := by
  simp only [Dict.contains, WorkerManager.get?_setStatus]
  split <;> simp

theorem get?_requeue (s : Scheduler) (w : WorkerId) (t : TaskId) :
    (s.requeueTasksForWorker w).2.tasks.get? t = (s.tasks.get? t).map (Task.requeued w) :=
  Dict.get?_mapValues s.tasks _ t

theorem get?_grant (s : Scheduler) (t u : TaskId) (w : WorkerId) :
    (s.grant t w).tasks.get? u = if u = t then (s.tasks.get? u).map (fun task =>
      { task with attempt := task.attempt + 1, assignedWorkerId := some w, status := .assigned })
      else s.tasks.get? u :=
  Dict.get?_modify s.tasks t u _

theorem get?_setTaskStatus (s : Scheduler) (t u : TaskId) (status : TaskStatus) :
    (s.setTaskStatus t status).tasks.get? u =
      if u = t then (s.tasks.get? u).map (fun task => { task with status }) else s.tasks.get? u :=
  Dict.get?_modify s.tasks t u _

variable {s s' : Scheduler} {t : TaskId} {task : Task} {w : WorkerId} {scope : Option (List TaskId)}

theorem submitTask_ok {taskType : String} {payload : List (Key × Val)}
    (accepted : s.submitTask t taskType payload = (.ok task, s')) :
    s.tasks.get? t = none ∧ task = ⟨taskType, payload, .pending, none, 0⟩ ∧
      s' = { s with tasks := s.tasks.insert t task } := by
  unfold submitTask at accepted
  split at accepted
  · cases accepted
  · split at accepted
    · cases accepted
    · split at accepted
      · cases accepted
      · rename_i absent
        cases accepted
        exact ⟨by simpa [Dict.contains] using absent, rfl, rfl⟩

theorem idleWorker?_eq_some (h : s.idleWorker? = some w) :
    ∃ worker, s.workers.get? w = some worker ∧ worker.status = .idle := by
  obtain ⟨⟨v, worker⟩, found, rfl⟩ := Option.map_eq_some_iff.mp h
  exact ⟨worker, Dict.mem_entries.mp (List.mem_of_find?_eq_some found),
    by simpa using List.find?_some found⟩

theorem pendingTask?_eq_some (h : s.pendingTask? scope = some t) :
    ∃ task, s.tasks.get? t = some task ∧ task.status = .pending ∧ inScope scope t = true := by
  obtain ⟨⟨u, task⟩, found, rfl⟩ := Option.map_eq_some_iff.mp h
  have holds := List.find?_some found
  simp only [Bool.and_eq_true, decide_eq_true_eq] at holds
  exact ⟨task, Dict.mem_entries.mp (List.mem_of_find?_eq_some found), holds.1, holds.2⟩

/-- One assignment: a PENDING task goes to an IDLE worker. -/
def Grants (s : Scheduler) (t : TaskId) (s' : Scheduler) : Prop :=
  ∃ w task worker, s.tasks.get? t = some task ∧ task.status = .pending ∧
    s.workers.get? w = some worker ∧ worker.status = .idle ∧ s' = s.grant t w

theorem assignTask_ok (h : s.assignTask t = (.ok (), s')) :
    s.Grants t s' := by
  unfold assignTask at h
  split at h
  · cases h
  · rename_i task found
    split at h
    · cases h
    · rename_i pending
      split at h
      · cases h
      · rename_i w idle
        obtain ⟨worker, known, free⟩ := idleWorker?_eq_some idle
        cases h
        exact ⟨w, task, worker, found, by simpa using pending, known, free, rfl⟩

theorem assignTask_error {e : SchedulerError} (h : s.assignTask t = (.error e, s')) : s' = s := by
  unfold assignTask at h
  split at h
  · cases h; rfl
  · split at h
    · cases h; rfl
    · split at h <;> cases h
      rfl

theorem assignNextPendingTask_some (h : s.assignNextPendingTask scope = (some t, s')) :
    s.Grants t s' ∧ inScope scope t = true := by
  unfold assignNextPendingTask at h
  split at h
  · cases h
  · rename_i u next
    obtain ⟨_, _, _, within⟩ := pendingTask?_eq_some next
    split at h
    · rename_i granted
      cases h
      exact ⟨assignTask_ok granted, within⟩
    · cases h

theorem assignNextPendingTask_none (h : s.assignNextPendingTask scope = (none, s')) : s' = s := by
  unfold assignNextPendingTask at h
  split at h
  · cases h; rfl
  · split at h
    · cases h
    · rename_i refused
      cases h
      exact assignTask_error refused

/-- The assignments a loop makes, in order. -/
inductive Batch (scope : Option (List TaskId)) : Scheduler → List TaskId → Scheduler → Prop
  | nil (s : Scheduler) : Batch scope s [] s
  | cons {s mid s' : Scheduler} {t : TaskId} {rest : List TaskId} :
      s.Grants t mid → inScope scope t = true → Batch scope mid rest s' →
      Batch scope s (t :: rest) s'

theorem assignLoop_batch (scope : Option (List TaskId)) (fuel : Nat) (s : Scheduler) :
    Batch scope s (assignLoop scope fuel s).1 (assignLoop scope fuel s).2 := by
  induction fuel generalizing s with
  | zero => exact .nil s
  | succ fuel ih =>
    rw [assignLoop]
    split
    · rename_i s' none
      rw [assignNextPendingTask_none none]
      exact .nil s
    · rename_i t s' granted
      obtain ⟨grants, within⟩ := assignNextPendingTask_some granted
      exact .cons grants within (ih s')

theorem assignAll_batch (s : Scheduler) (scope : Option (List TaskId)) :
    Batch scope s (s.assignAll scope).1 (s.assignAll scope).2 :=
  assignLoop_batch scope _ s

/-- No worker is idle, or there is no task. -/
def Resting (s : Scheduler) : Prop := (∀ w, s.workers.statusOf w ≠ some .idle) ∨ ∀ t, s.tasks.get? t = none

theorem assignAll_of_resting (resting : s.Resting) (scope : Option (List TaskId)) : s.assignAll scope = ([], s) := by
  have made := assignAll_batch s scope
  generalize s.assignAll scope = result at made ⊢
  obtain ⟨batch, s'⟩ := result
  cases made with
  | nil => rfl
  | cons grants _ _ =>
    obtain ⟨w, _, worker, found, _, known, idle, _⟩ := grants
    rcases resting with busy | empty
    · exact absurd (by simp [WorkerManager.statusOf, known, idle]) (busy w)
    · rw [empty] at found
      cases found

namespace Batch
variable {scope : Option (List TaskId)} {s s' : Scheduler} {batch : List TaskId} {t : TaskId}

theorem others (made : Batch scope s batch s') (other : t ∉ batch) : s'.tasks.get? t = s.tasks.get? t := by
  induction made with
  | nil s => rfl
  | cons grants _ _ ih =>
    obtain ⟨w, _, _, _, _, _, _, rfl⟩ := grants
    rw [List.mem_cons, not_or] at other
    obtain ⟨apart, later⟩ := other
    rw [ih later, get?_grant, if_neg apart]

/-- The tasks of a batch were PENDING, and in the scope. -/
theorem pending (made : Batch scope s batch s') (member : t ∈ batch) :
    inScope scope t = true ∧ ∃ task, s.tasks.get? t = some task ∧ task.status = .pending := by
  induction made with
  | nil s => cases member
  | cons grants within _ ih =>
    obtain ⟨w, task, _, found, pending, _, _, rfl⟩ := grants
    rcases List.mem_cons.mp member with rfl | later
    · exact ⟨within, task, found, pending⟩
    · obtain ⟨inside, task', found', pending'⟩ := ih later
      rw [get?_grant] at found'
      split at found'
      · obtain ⟨_, _, rfl⟩ := Option.map_eq_some_iff.mp found'
        cases pending'
      · exact ⟨inside, task', found', pending'⟩

theorem nodup (made : Batch scope s batch s') : batch.Nodup := by
  induction made with
  | nil s => exact .nil
  | cons grants _ rest ih =>
    obtain ⟨w, _, _, _, _, _, _, rfl⟩ := grants
    refine List.nodup_cons.mpr ⟨fun again => ?_, ih⟩
    obtain ⟨_, task, found, pending⟩ := rest.pending again
    rw [get?_grant, if_pos rfl] at found
    obtain ⟨_, _, rfl⟩ := Option.map_eq_some_iff.mp found
    cases pending

theorem found (made : Batch scope s batch s') {task : Task} (found : s.tasks.get? t = some task) :
    ∃ task', s'.tasks.get? t = some task' := by
  induction made generalizing task with
  | nil s => exact ⟨task, found⟩
  | cons grants _ _ ih =>
    obtain ⟨w, _, _, _, _, _, _, rfl⟩ := grants
    rw [get?_grant] at ih
    split at ih
    · exact ih (congrArg _ found)
    · exact ih found

theorem idle (made : Batch scope s batch s') (some : batch ≠ []) : s.idleWorker?.isSome = true := by
  cases made with
  | nil s => exact absurd rfl some
  | cons grants _ _ =>
    obtain ⟨w, _, worker, _, _, known, idle, _⟩ := grants
    rw [idleWorker?, Option.isSome_map, List.find?_isSome]
    exact ⟨(w, worker), Dict.mem_entries.mpr known, by simpa using idle⟩

end Batch

theorem startTask_ok (h : s.startTask t = (.ok (), s')) :
    ∃ task, s.tasks.get? t = some task ∧ task.status = .assigned ∧ s' = s.setTaskStatus t .running := by
  unfold startTask at h
  split at h
  · cases h
  · rename_i task found
    split at h
    · cases h
    · rename_i status
      cases h
      exact ⟨task, found, by simpa using status, rfl⟩

/-- Where a finished task leaves its worker. -/
def released (s : Scheduler) (w : WorkerId) : Scheduler :=
  if s.workers.statusOf w = some .draining then s else s.setWorkerStatus w .idle

theorem updateWorkerStatus_of_known (status : WorkerStatus) (known : s.workers.contains w = true) :
    s.updateWorkerStatus w status = (.ok (), s.setWorkerStatus w status) := by
  simp [updateWorkerStatus, WorkerManager.updateStatus, known]

theorem releaseWorker_of_known (known : s.workers.contains w = true) :
    s.releaseWorker (some w) = (.ok (), s.released w) := by
  by_cases draining : s.workers.statusOf w = some .draining
  · simp [releaseWorker, released, draining]
  · simp [releaseWorker, released, draining, updateWorkerStatus_of_known .idle known]

theorem completeTask_of_known (found : s.tasks.get? t = some task) (running : task.status.inFlight = true)
    (owner : task.assignedWorkerId = some w) (known : s.workers.contains w = true) :
    s.completeTask t = (.ok (), (s.setTaskStatus t .completed).released w) := by
  unfold completeTask
  simp only [found, running, if_true, owner]
  exact releaseWorker_of_known (by simpa using known)

theorem failTask_of_known (found : s.tasks.get? t = some task) (owner : task.assignedWorkerId = some w)
    (known : s.workers.contains w = true) :
    s.failTask t = (.ok (), (s.setTaskStatus t .failed).released w) := by
  unfold failTask
  simp only [found, owner]
  exact releaseWorker_of_known (by simpa using known)

theorem releaseWorker_of_unknown (unknown : s.workers.contains w = false) :
    s.releaseWorker (some w) = (.error (.workerNotFound s!"Unknown worker: {w}"), s) := by
  have absent : s.workers.get? w = none := by simpa [Dict.contains] using unknown
  simp [releaseWorker, WorkerManager.statusOf, absent, updateWorkerStatus, WorkerManager.updateStatus,
    unknown]

theorem completeTask_of_unknown (found : s.tasks.get? t = some task) (running : task.status.inFlight = true)
    (owner : task.assignedWorkerId = some w) (unknown : s.workers.contains w = false) :
    s.completeTask t = (.error (.workerNotFound s!"Unknown worker: {w}"), s.setTaskStatus t .completed) := by
  unfold completeTask
  simp only [found, running, if_true, owner]
  exact releaseWorker_of_unknown (by simpa using unknown)

theorem completeTask_of_idle (found : s.tasks.get? t = some task) (idle : task.status.inFlight = false) :
    s.completeTask t =
      (.error (.valueError s!"Task cannot complete from status: {task.status.name}"), s) := by
  simp [completeTask, found, idle]

theorem failTask_of_unknown (found : s.tasks.get? t = some task) (owner : task.assignedWorkerId = some w)
    (unknown : s.workers.contains w = false) :
    s.failTask t = (.error (.workerNotFound s!"Unknown worker: {w}"), s.setTaskStatus t .failed) := by
  unfold failTask
  simp only [found, owner]
  exact releaseWorker_of_unknown (by simpa using unknown)

/-- The state `condemn` leaves when the worker is known. -/
def condemned (s : Scheduler) (w : WorkerId) : Scheduler :=
  ((s.setWorkerStatus w .failed).requeueTasksForWorker w).2

theorem condemn_of_known (known : s.workers.contains w = true) :
    s.condemn w = (.ok (), s.condemned w) := by
  simp [condemn, updateWorkerStatus_of_known .failed known, condemned]

@[simp] theorem released_tasks (s : Scheduler) (w : WorkerId) : (s.released w).tasks = s.tasks := by
  unfold released
  split <;> rfl

@[simp] theorem condemned_workers (s : Scheduler) (w : WorkerId) :
    (s.condemned w).workers = s.workers.setStatus w .failed := rfl

theorem get?_condemned (s : Scheduler) (w : WorkerId) (t : TaskId) :
    (s.condemned w).tasks.get? t = (s.tasks.get? t).map (Task.requeued w) :=
  get?_requeue (s.setWorkerStatus w .failed) w t

theorem requeued_of_other {v : WorkerId} (owner : task.assignedWorkerId = some v) (other : v ≠ w) :
    task.requeued w = task := by
  rw [Task.requeued, if_neg]
  rintro ⟨mine, _⟩
  rw [owner] at mine
  exact other (Option.some.inj mine)

theorem takenBack_inFlight (task : Task) : task.takenBack.status.inFlight = false := by
  unfold Task.takenBack
  simp only
  split <;> rfl

/-- A task that is still in flight was not taken back. -/
theorem kept_of_inFlight {held : Prop} [Decidable held]
    (running : (if held then task.takenBack else task).status.inFlight = true) : ¬ held := by
  intro taken
  rw [if_pos taken, takenBack_inFlight] at running
  cases running

theorem foldl_requeued_of_idle (ws : List WorkerId) (idle : task.status.inFlight = false) :
    ws.foldl (fun acc w => acc.requeued w) task = task := by
  induction ws with
  | nil => rfl
  | cons w ws ih =>
    have same : task.requeued w = task := by simp [Task.requeued, idle]
    rw [List.foldl_cons, same, ih]

/-- Requeueing for several workers takes a task back once, from the one that holds it. -/
theorem foldl_requeued (ws : List WorkerId) (task : Task) :
    ws.foldl (fun acc w => acc.requeued w) task =
      if (∃ w ∈ ws, task.assignedWorkerId = some w) ∧ task.status.inFlight = true then task.takenBack
      else task := by
  induction ws with
  | nil => simp
  | cons w ws ih =>
    rw [List.foldl_cons]
    by_cases held : task.assignedWorkerId = some w ∧ task.status.inFlight = true
    · have taken : task.requeued w = task.takenBack := if_pos held
      rw [taken, foldl_requeued_of_idle ws (takenBack_inFlight task), if_pos]
      exact ⟨⟨w, List.mem_cons_self, held.1⟩, held.2⟩
    · have same : task.requeued w = task := if_neg held
      rw [same, ih]
      congr 1
      simp only [List.mem_cons, exists_eq_or_imp, eq_iff_iff]
      tauto

theorem foldl_requeue_workers (ws : List WorkerId) (s : Scheduler) :
    (ws.foldl (fun acc w => (acc.requeueTasksForWorker w).2) s).workers = s.workers := by
  induction ws generalizing s with
  | nil => rfl
  | cons w ws ih => rw [List.foldl_cons, ih, requeue_workers]

theorem get?_foldl_requeue (ws : List WorkerId) (s : Scheduler) (t : TaskId) :
    (ws.foldl (fun acc w => (acc.requeueTasksForWorker w).2) s).tasks.get? t =
      (s.tasks.get? t).map (fun task => ws.foldl (fun acc w => acc.requeued w) task) := by
  induction ws generalizing s with
  | nil => simp
  | cons w ws ih =>
    rw [List.foldl_cons, ih, get?_requeue, Option.map_map]
    rfl

@[simp] theorem condemnStale_workers (s : Scheduler) (timeout now : Time) :
    (s.condemnStale timeout now).2.workers = (s.workers.getStaleWorkers timeout now).2 :=
  foldl_requeue_workers _ _

theorem get?_condemnStale (s : Scheduler) (timeout now : Time) (t : TaskId) :
    (s.condemnStale timeout now).2.tasks.get? t = (s.tasks.get? t).map (fun task =>
      if (∃ w ∈ (s.workers.getStaleWorkers timeout now).1, task.assignedWorkerId = some w) ∧
        task.status.inFlight = true then task.takenBack else task) := by
  simp only [condemnStale, get?_foldl_requeue, foldl_requeued]

end Scheduler
end DistributedCompute
