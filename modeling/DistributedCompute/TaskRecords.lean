import DistributedCompute.Scheduler
import DistributedCompute.Transition

/-! The task records of a scheduler under every sequence of calls, of the
scheduler's own methods and of the registry methods that share its workers.
`remove_worker` and `clear` are not calls: a worker that is known stays known. -/
namespace DistributedCompute
open Py Transition

/-- `VALID_WORKER_STATUSES`, by name. -/
def workerStatus? : String → Option WorkerStatus
  | "REGISTERED" => some .registered
  | "IDLE" => some .idle
  | "BUSY" => some .busy
  | "FAILED" => some .failed
  | "DRAINING" => some .draining
  | "STOPPED" => some .stopped
  | _ => none

inductive SchedulerCall
  | submitTask (taskId taskType payload : Val)
  | assignTask (t : TaskId)
  | assignNextPendingTask (scope : Option (List TaskId))
  | startTask (t : TaskId)
  | completeTask (t : TaskId)
  | failTask (t : TaskId)
  | requeueTasksForWorker (w : WorkerId)
  | registerWorker (workerId host port : Val) (now : Time)
  | updateStatus (w : WorkerId) (status : String)
  | getStaleWorkers (timeout now : Time)

inductive CallError
  | scheduler (e : SchedulerError)
  | register (e : RegisterError)
  deriving DecidableEq, Repr

namespace Scheduler

/-- `submit_task` with the type checks of its arguments. -/
def submitTaskChecked (s : Scheduler) (taskId taskType payload : Val) : Except SchedulerError Task × Scheduler :=
  match nonEmptyStr taskId, nonEmptyStr taskType, payload with
  | none, _, _ => (.error (.valueError "task_id must be a non-empty string"), s)
  | some _, none, _ => (.error (.valueError "task_type must be a non-empty string"), s)
  | some t, some ty, .dict entries => s.submitTask t ty entries
  | some _, some _, _ => (.error (.valueError "payload must be a dictionary"), s)

/-- `worker_manager.update_status` with the check of its status. -/
def updateStatusChecked (s : Scheduler) (w : WorkerId) (status : String) : Except SchedulerError Unit × Scheduler :=
  match workerStatus? status with
  | none => (.error (.valueError s!"Invalid worker status: {status}"), s)
  | some status => s.updateWorkerStatus w status

/-- Keep whether a method returned, and what it raised. -/
def ended {α : Type} (call : Except SchedulerError α × Scheduler) : Except CallError Unit × Scheduler :=
  match call with
  | (.ok _, s) => (.ok (), s)
  | (.error e, s) => (.error (.scheduler e), s)

def perform (s : Scheduler) : SchedulerCall → Except CallError Unit × Scheduler
  | .submitTask taskId taskType payload => ended (s.submitTaskChecked taskId taskType payload)
  | .assignTask t => ended (s.assignTask t)
  | .assignNextPendingTask scope => (.ok (), (s.assignNextPendingTask scope).2)
  | .startTask t => ended (s.startTask t)
  | .completeTask t => ended (s.completeTask t)
  | .failTask t => ended (s.failTask t)
  | .requeueTasksForWorker w => (.ok (), (s.requeueTasksForWorker w).2)
  | .registerWorker workerId host port now =>
    match s.workers.registerWorker workerId host port now with
    | .ok (_, ws) => (.ok (), { s with workers := ws })
    | .error e => (.error (.register e), s)
  | .updateStatus w status => ended (s.updateStatusChecked w status)
  | .getStaleWorkers timeout now => (.ok (), { s with workers := (s.workers.getStaleWorkers timeout now).2 })

/-- The task_id a call submits: its argument, if the call returns. -/
def submitted (s : Scheduler) : SchedulerCall → List TaskId
  | .submitTask (.str t) taskType payload =>
    match (s.submitTaskChecked (.str t) taskType payload).1 with
    | .ok _ => [t]
    | .error _ => []
  | _ => []

end Scheduler

/-! ### One record -/

/-- What every record satisfies. The first part is about records in any status,
for `fail_task` releases the worker of a task in any status. -/
structure Task.Sound (ws : WorkerManager) (task : Task) : Prop where
  known : ∀ w, task.assignedWorkerId = some w → ws.contains w = true
  pending : task.status = .pending → task.assignedWorkerId = none ∧ task.attempt < maxTaskAttempts
  held : task.status.inFlight = true →
    task.assignedWorkerId.isSome = true ∧ 1 ≤ task.attempt ∧ task.attempt ≤ maxTaskAttempts

/-- From one state to the next the attempt grows by one, from PENDING to
ASSIGNED, or it stays and the record takes another path. -/
def Task.Follows (task task' : Task) : Prop :=
  (task.status = .pending ∧ task'.status = .assigned ∧ task'.attempt = task.attempt + 1) ∨
  (¬ (task.status = .pending ∧ task'.status = .assigned) ∧ task'.attempt = task.attempt)

namespace Task

theorem Follows.refl (task : Task) : task.Follows task := by
  refine .inr ⟨?_, rfl⟩
  rintro ⟨pending, assigned⟩
  rw [pending] at assigned
  cases assigned

theorem Sound.mono {ws ws' : WorkerManager} {task : Task} (sound : task.Sound ws)
    (kept : ∀ w, ws.contains w = true → ws'.contains w = true) : task.Sound ws' :=
  ⟨fun w owner => kept w (sound.known w owner), sound.pending, sound.held⟩

theorem sound_submitted (ws : WorkerManager) (taskType : String) (payload : List (Key × Val)) :
    Sound ws ⟨taskType, payload, .pending, none, 0⟩ :=
  ⟨nofun, fun _ => ⟨rfl, Nat.zero_lt_succ 2⟩, nofun⟩

theorem Sound.granted {ws ws' : WorkerManager} {task : Task} {w : WorkerId} (sound : task.Sound ws)
    (pending : task.status = .pending) (known : ws'.contains w = true) :
    Sound ws' { task with attempt := task.attempt + 1, assignedWorkerId := some w, status := .assigned } where
  known := by
    intro v owner
    cases owner
    exact known
  pending := nofun
  held := fun _ => ⟨rfl, Nat.le_add_left 1 _, (sound.pending pending).2⟩

/-- A record that is in flight, or settled, may move on to a status of its own. -/
theorem Sound.setStatus {ws : WorkerManager} {task : Task} {status : TaskStatus} (sound : task.Sound ws)
    (notPending : status ≠ .pending) (held : status.inFlight = true → task.status.inFlight = true) :
    Sound ws { task with status } :=
  ⟨sound.known, fun pending => absurd pending notPending, fun within => sound.held (held within)⟩

theorem Sound.requeued {ws : WorkerManager} {task : Task} (sound : task.Sound ws) (w : WorkerId) :
    (task.requeued w).Sound ws := by
  unfold Task.requeued
  split
  · rename_i mine
    refine ⟨nofun, fun pending => ⟨rfl, ?_⟩, fun held => ?_⟩
    · simp only [takenBack] at pending ⊢
      split at pending
      · cases pending
      · omega
    · rw [Scheduler.takenBack_inFlight] at held
      cases held
  · exact sound

theorem follows_requeued (w : WorkerId) (task : Task) : task.Follows (task.requeued w) := by
  unfold Task.requeued
  split
  · rename_i mine
    refine .inr ⟨?_, rfl⟩
    rintro ⟨pending, _⟩
    simp [pending, TaskStatus.inFlight] at mine
  · exact .refl task

end Task

/-! ### All records -/

namespace Scheduler

def Records (s : Scheduler) : Prop := ∀ t task, s.tasks.get? t = some task → task.Sound s.workers

/-- One call: the records of `s` are carried on, `new` is appended. -/
structure Evolves (s s' : Scheduler) (new : List TaskId) : Prop where
  carried : ∀ t task, s.tasks.get? t = some task → ∃ task', s'.tasks.get? t = some task' ∧
    task'.Sound s'.workers ∧ task.Follows task'
  keys : s'.tasks.keys = s.tasks.keys ++ new
  fresh : ∀ t ∈ new, ∀ task, s'.tasks.get? t = some task → task.Sound s'.workers

theorem Evolves.records {s s' : Scheduler} {new : List TaskId} (evolves : s.Evolves s' new) : s'.Records := by
  intro t task found
  have listed : t ∈ s.tasks.keys ++ new := by
    rw [← evolves.keys, ← Dict.get?_isSome, found]
    rfl
  rcases List.mem_append.mp listed with old | new
  · obtain ⟨before, held⟩ := Option.isSome_iff_exists.mp (Dict.get?_isSome.mpr old)
    obtain ⟨task', found', sound, _⟩ := evolves.carried t before held
    cases found.symm.trans found'
    exact sound
  · exact evolves.fresh t new task found

section Calls
variable {s : Scheduler} (records : s.Records)
include records

theorem Records.unchanged : s.Evolves s [] :=
  ⟨fun t task found => ⟨task, found, records t task found, .refl task⟩, by simp, nofun⟩

/-- Only workers changed, and none is gone. -/
theorem Records.workers {ws : WorkerManager} (kept : ∀ w, s.workers.contains w = true → ws.contains w = true) :
    s.Evolves { s with workers := ws } [] :=
  ⟨fun t task found => ⟨task, found, (records t task found).mono kept, .refl task⟩, by simp, nofun⟩

theorem Records.modify {ws : WorkerManager} {t : TaskId} {f : Task → Task}
    (kept : ∀ w, s.workers.contains w = true → ws.contains w = true)
    (moved : ∀ task, s.tasks.get? t = some task → (f task).Sound ws ∧ task.Follows (f task)) :
    s.Evolves ⟨ws, s.tasks.modify t f⟩ [] := by
  refine ⟨fun u task found => ?_, by simp, nofun⟩
  by_cases same : u = t
  · subst same
    exact ⟨f task, by simp [found], (moved task found).1, (moved task found).2⟩
  · refine ⟨task, ?_, (records u task found).mono kept, .refl task⟩
    rw [Dict.get?_modify_ne s.tasks f same, found]

theorem Records.requeue (w : WorkerId) : s.Evolves (s.requeueTasksForWorker w).2 [] := by
  refine ⟨fun t task found => ⟨task.requeued w, ?_, ?_, Task.follows_requeued w task⟩, ?_, nofun⟩
  · rw [get?_requeue, found]
    rfl
  · exact (records t task found).requeued w
  · simp [requeueTasksForWorker, Dict.mapValues_keys]

theorem Records.submit {t taskType : String} {payload : List (Key × Val)} (absent : s.tasks.get? t = none) :
    s.Evolves { s with tasks := s.tasks.insert t ⟨taskType, payload, .pending, none, 0⟩ } [t] := by
  refine ⟨fun u task found => ⟨task, ?_, records u task found, .refl task⟩,
    Dict.insert_keys_of_absent _ absent, fun u member task found => ?_⟩
  · rw [Dict.get?_insert, if_neg, found]
    rintro rfl
    rw [absent] at found
    cases found
  · rw [List.mem_singleton.mp member, Dict.get?_insert_self] at found
    cases found
    exact Task.sound_submitted s.workers taskType payload

theorem Records.grants {s' : Scheduler} {t : TaskId} (grants : s.Grants t s') : s.Evolves s' [] := by
  obtain ⟨w, task, worker, found, pending, known, _, rfl⟩ := grants
  refine records.modify (fun v held => by rw [contains_setStatus, held]) fun other same => ?_
  cases found.symm.trans same
  refine ⟨(records t task found).granted pending ?_, .inl ⟨pending, rfl, rfl⟩⟩
  rw [contains_setStatus]
  simp [Dict.contains, known]

/-- A task is given a status of its own and its worker is released. -/
theorem Records.finish {t : TaskId} {task : Task} (found : s.tasks.get? t = some task) (status : TaskStatus)
    (ended : status.terminal = true) :
    ∃ s', (s.setTaskStatus t status).releaseWorker task.assignedWorkerId = (.ok (), s') ∧ s.Evolves s' [] := by
  have moved : ∀ ws : WorkerManager, (∀ w, s.workers.contains w = true → ws.contains w = true) →
      s.Evolves ⟨ws, s.tasks.modify t (fun task => { task with status })⟩ [] := by
    intro ws kept
    refine records.modify kept fun other same => ?_
    refine ⟨((records t other same).setStatus ?_ ?_).mono kept, .inr ⟨?_, rfl⟩⟩ <;> cases status <;> simp_all [
      TaskStatus.terminal, TaskStatus.inFlight]
  cases owner : task.assignedWorkerId with
  | none => exact ⟨_, rfl, moved s.workers (fun _ held => held)⟩
  | some w =>
    refine ⟨_, releaseWorker_of_known ((records t task found).known w owner), ?_⟩
    unfold released
    split
    · exact moved s.workers (fun _ held => held)
    · exact moved _ (fun v held => (contains_setStatus s.workers w v .idle).trans held)

/-! ### Every call -/

omit records in
theorem submitTask_cases (s : Scheduler) (t taskType : String) (payload : List (Key × Val)) :
    (∃ e, s.submitTask t taskType payload = (.error e, s)) ∨
    (s.tasks.get? t = none ∧ ∃ task, s.submitTask t taskType payload =
      (.ok task, { s with tasks := s.tasks.insert t ⟨taskType, payload, .pending, none, 0⟩ })) := by
  unfold submitTask
  split
  · exact .inl ⟨_, rfl⟩
  · split
    · exact .inl ⟨_, rfl⟩
    · split
      · exact .inl ⟨_, rfl⟩
      · rename_i absent
        exact .inr ⟨by simpa [Dict.contains] using absent, _, rfl⟩

omit records in
theorem submitTaskChecked_cases (s : Scheduler) (taskId taskType payload : Val) :
    (∃ e, s.submitTaskChecked taskId taskType payload = (.error e, s)) ∨
    ∃ t ty entries task, taskId = .str t ∧ s.tasks.get? t = none ∧ s.submitTaskChecked taskId taskType payload =
      (.ok task, { s with tasks := s.tasks.insert t ⟨ty, entries, .pending, none, 0⟩ }) := by
  unfold submitTaskChecked
  split
  · exact .inl ⟨_, rfl⟩
  · exact .inl ⟨_, rfl⟩
  · rename_i t ty entries named _
    have isStr : taskId = .str t := by
      unfold nonEmptyStr at named
      split at named
      · split at named <;> simp_all
      · cases named
    rcases s.submitTask_cases t ty entries with ⟨e, refused⟩ | ⟨absent, task, done⟩
    · exact .inl ⟨e, refused⟩
    · exact .inr ⟨t, ty, entries, task, isStr, absent, done⟩
  · exact .inl ⟨_, rfl⟩

/-- A call carries the records on, and changes nothing if it raises. -/
def Performed (s : Scheduler) (call : SchedulerCall) : Prop :=
  s.Evolves (s.perform call).2 (s.submitted call) ∧ ∀ e, (s.perform call).1 = .error e → (s.perform call).2 = s

omit records in
theorem performed_returns {s' : Scheduler} {call : SchedulerCall} (done : s.perform call = (.ok (), s'))
    (evolves : s.Evolves s' (s.submitted call)) : s.Performed call := by
  unfold Performed
  rw [done]
  exact ⟨evolves, nofun⟩

theorem Records.performed_raises {call : SchedulerCall} {e : CallError} (raised : s.perform call = (.error e, s))
    (none : s.submitted call = []) : s.Performed call := by
  unfold Performed
  rw [raised, none]
  exact ⟨records.unchanged, fun _ _ => rfl⟩

theorem Records.performed_submit (taskId taskType payload : Val) :
    s.Performed (.submitTask taskId taskType payload) := by
  rcases s.submitTaskChecked_cases taskId taskType payload with
    ⟨e, refused⟩ | ⟨t, ty, entries, task, rfl, absent, done⟩
  · refine records.performed_raises (by rw [perform, refused]; rfl) ?_
    cases taskId <;> simp [submitted, refused]
  · refine performed_returns (by rw [perform, done]; rfl) ?_
    have new : s.submitted (.submitTask (.str t) taskType payload) = [t] := by simp [submitted, done]
    rw [new]
    exact records.submit absent

theorem Records.performed_start (t : TaskId) : s.Performed (.startTask t) := by
  rcases made : s.startTask t with ⟨e | _, s'⟩
  · have same : s' = s := by
      unfold startTask at made
      split at made
      · cases made
        rfl
      · split at made <;> cases made
        rfl
    subst same
    exact records.performed_raises (by rw [perform, made]; rfl) rfl
  · obtain ⟨task, found, assigned, rfl⟩ := startTask_ok made
    refine performed_returns (by rw [perform, made]; rfl) ?_
    refine records.modify (fun _ held => held) fun other same => ?_
    cases found.symm.trans same
    have held : task.status.inFlight = true := by rw [assigned]; rfl
    refine ⟨(records t task found).setStatus (by simp) (fun _ => held), .inr ⟨?_, rfl⟩⟩
    simp [assigned]

theorem Records.performed_complete (t : TaskId) : s.Performed (.completeTask t) := by
  cases found : s.tasks.get? t with
  | none => exact records.performed_raises (by simp [perform, completeTask, found, ended]; rfl) rfl
  | some task =>
    cases running : task.status.inFlight with
    | false => exact records.performed_raises (by rw [perform, completeTask_of_idle found running]; rfl) rfl
    | true =>
      obtain ⟨s', released, evolves⟩ := records.finish found .completed rfl
      refine performed_returns ?_ evolves
      simp only [perform, completeTask, found, running, if_true, released]
      rfl

theorem Records.performed_fail (t : TaskId) : s.Performed (.failTask t) := by
  cases found : s.tasks.get? t with
  | none => exact records.performed_raises (by simp [perform, failTask, found, ended]; rfl) rfl
  | some task =>
    obtain ⟨s', released, evolves⟩ := records.finish found .failed rfl
    refine performed_returns ?_ evolves
    simp only [perform, failTask, found, released]
    rfl

theorem Records.performed_register (workerId host port : Val) (now : Time) :
    s.Performed (.registerWorker workerId host port now) := by
  rcases made : s.workers.registerWorker workerId host port now with e | ⟨w, ws⟩
  · exact records.performed_raises (by simp only [perform, made]; rfl) rfl
  · obtain ⟨_, worker, rfl, _⟩ := WorkerManager.registerWorker_eq_ok made
    refine performed_returns (by simp only [perform, made]; rfl) (records.workers fun v held => ?_)
    simp only [Dict.contains, Dict.get?_insert] at held ⊢
    split
    · rfl
    · exact held

theorem Records.performed_update (w : WorkerId) (status : String) : s.Performed (.updateStatus w status) := by
  cases valid : workerStatus? status with
  | none => exact records.performed_raises (by simp only [perform, updateStatusChecked, valid, ended]; rfl) rfl
  | some status' =>
    cases known : s.workers.contains w with
    | true =>
      have kept : s.Evolves (s.setWorkerStatus w status') [] :=
        records.workers fun v held => (contains_setStatus s.workers w v status').trans held
      refine performed_returns ?_ kept
      simp only [perform, updateStatusChecked, valid, updateWorkerStatus_of_known status' known]
      rfl
    | false =>
      refine records.performed_raises (e := .scheduler (.workerNotFound s!"Unknown worker: {w}")) ?_ rfl
      simp only [perform, updateStatusChecked, valid, updateWorkerStatus, WorkerManager.updateStatus, known,
        Bool.false_eq_true, if_false]
      rfl

theorem Records.performed (call : SchedulerCall) : s.Performed call := by
  cases call with
  | submitTask taskId taskType payload => exact records.performed_submit taskId taskType payload
  | assignTask t =>
    rcases made : s.assignTask t with ⟨e | _, s'⟩
    · rw [assignTask_error made] at made
      exact records.performed_raises (by rw [perform, made]; rfl) rfl
    · exact performed_returns (by rw [perform, made]; rfl) (records.grants (assignTask_ok made))
  | assignNextPendingTask scope =>
    rcases made : s.assignNextPendingTask scope with ⟨_ | t, s'⟩
    · rw [assignNextPendingTask_none made] at made
      exact performed_returns (by rw [perform, made]) records.unchanged
    · exact performed_returns (by rw [perform, made]) (records.grants (assignNextPendingTask_some made).1)
  | startTask t => exact records.performed_start t
  | completeTask t => exact records.performed_complete t
  | failTask t => exact records.performed_fail t
  | requeueTasksForWorker w => exact performed_returns rfl (records.requeue w)
  | registerWorker workerId host port now => exact records.performed_register workerId host port now
  | updateStatus w status => exact records.performed_update w status
  | getStaleWorkers timeout now =>
    refine performed_returns rfl (records.workers fun w held => ?_)
    simpa [Dict.contains, WorkerManager.get?_staleWorkers] using held

end Calls

/-! ### Every sequence of calls -/

def afterCall (s : Scheduler) (call : SchedulerCall) : Option Scheduler := some (s.perform call).2

/-- After any sequence of calls on an empty scheduler: PENDING, ASSIGNED and
RUNNING records are as they should be, and any next call raises an attempt by one
exactly from PENDING to ASSIGNED, keeps the task_ids in submission order, and
leaves everything as it was if it raises. -/
theorem task_records_kept {s : Scheduler} (run : Steps afterCall (fun _ _ => True) ⟨∅, ∅⟩ s) :
    (∀ t task, s.tasks.get? t = some task →
      (task.status = .pending → task.assignedWorkerId = none ∧ task.attempt < maxTaskAttempts) ∧
      (task.status = .assigned ∨ task.status = .running → ∃ w, task.assignedWorkerId = some w ∧
        s.workers.contains w = true ∧ 1 ≤ task.attempt ∧ task.attempt ≤ maxTaskAttempts)) ∧
    s.tasks.keys.Nodup ∧
    ∀ call, (∀ t task, s.tasks.get? t = some task → ∃ task', (s.perform call).2.tasks.get? t = some task' ∧
        task.Follows task') ∧
      (s.perform call).2.tasks.keys = s.tasks.keys ++ s.submitted call ∧
      ∀ e, (s.perform call).1 = .error e → (s.perform call).2 = s := by
  have records : s.Records := by
    refine run.invariant (I := Records) (fun t task found => by cases found) ?_
    intro before call after held _ taken
    cases taken
    exact (Records.performed held call).1.records
  refine ⟨fun t task found => ⟨(records t task found).pending, fun held => ?_⟩, s.tasks.nodup, fun call => ?_⟩
  · have inFlight : task.status.inFlight = true := by rcases held with held | held <;> rw [held] <;> rfl
    obtain ⟨some, bounds⟩ := (records t task found).held inFlight
    obtain ⟨w, owner⟩ := Option.isSome_iff_exists.mp some
    exact ⟨w, owner, (records t task found).known w owner, bounds⟩
  · obtain ⟨evolves, unchanged⟩ := records.performed call
    refine ⟨fun t task found => ?_, evolves.keys, unchanged⟩
    obtain ⟨task', found', _, follows⟩ := evolves.carried t task found
    exact ⟨task', found', follows⟩

/-- A worker registers, takes a task and starts it. -/
def startedCalls : List SchedulerCall :=
  [.registerWorker (.str "w") (.str "127.0.0.1") (.int 6001) 0,
    .submitTask (.str "t") (.str "ADD") (.dict []), .assignNextPendingTask none, .startTask "t"]

/-- The first attempt of a started task, and a completion that raises. -/
theorem startedCalls_records : ∃ s, Steps afterCall (fun _ _ => True) ⟨∅, ∅⟩ s ∧ s.tasks.keys.Nodup ∧
    (∀ task, s.tasks.get? "t" = some task → task.status = .running → 1 ≤ task.attempt ∧ task.attempt ≤ 3) ∧
    (s.perform (.completeTask "u")).2 = s := by
  have played : (replay afterCall (fun _ _ => True) ⟨∅, ∅⟩ startedCalls).any (fun s =>
      decide ((s.perform (.completeTask "u")).1 = .error (.scheduler (unknownTask "u")))) = true := by decide
  obtain ⟨s, run, raises⟩ := replay_reaches startedCalls played
  obtain ⟨records, nodup, next⟩ := task_records_kept run
  refine ⟨s, run, nodup, fun task found running => ?_, (next (.completeTask "u")).2.2 _ raises⟩
  obtain ⟨_, _, _, bounds⟩ := (records "t" task found).2 (.inr running)
  exact bounds

/-! ### Records that have ended -/

/-- `fail_task` on a task that has ended does no harm: the task is FAILED already, and
releasing its worker, if it has one, leaves the worker's status as it is. -/
def failsHarmlessly (s : Scheduler) (task : Task) : Bool :=
  task.status = .failed && match task.assignedWorkerId with
    | none => true
    | some w =>
      match s.workers.statusOf w with
      | none | some .idle | some .draining => true
      | _ => false

/-- `fail_task` is the only method without a check of the task's status. -/
def harmless (s : Scheduler) : SchedulerCall → Bool
  | .failTask t =>
    match s.tasks.get? t with
    | some task => !task.status.terminal || s.failsHarmlessly task
    | none => true
  | _ => true

theorem idle_of_terminal {status : TaskStatus} (ended : status.terminal = true) : status.inFlight = false := by
  cases status <;> first | rfl | cases ended

theorem releaseWorker_tasks (s : Scheduler) (owner : Option WorkerId) :
    (s.releaseWorker owner).2.tasks = s.tasks := by
  cases owner with
  | none => rfl
  | some w =>
    cases known : s.workers.contains w with
    | true => rw [releaseWorker_of_known known, released_tasks]
    | false => rw [releaseWorker_of_unknown known]

@[simp] theorem ended_state {α : Type} (made : Except SchedulerError α × Scheduler) : (ended made).2 = made.2 := by
  obtain ⟨_ | _, _⟩ := made <;> rfl

section Terminal
variable {s : Scheduler} {t : TaskId} {task : Task}

/-- What `_release_worker` makes of the status of a worker. -/
def freed : WorkerStatus → WorkerStatus
  | .draining => .draining
  | _ => .idle

theorem statusOf_releaseWorker (s : Scheduler) (w v : WorkerId) :
    (s.releaseWorker (some w)).2.workers.statusOf v =
      if v = w then (s.workers.statusOf v).map freed else s.workers.statusOf v := by
  cases known : s.workers.contains w with
  | true =>
    rw [releaseWorker_of_known known, released]
    split
    · rename_i draining
      split
      · rename_i same
        rw [same, draining]
        rfl
      · rfl
    · rename_i other
      rw [setWorkerStatus_workers, WorkerManager.statusOf_setStatus]
      split
      · rename_i same
        subst same
        cases status : s.workers.statusOf v with
        | none => rfl
        | some held => cases held <;> simp_all [freed]
      · rfl
  | false =>
    have absent : s.workers.statusOf w = none := by
      simpa [Dict.contains, WorkerManager.statusOf] using known
    rw [releaseWorker_of_unknown known]
    split
    · rename_i same
      rw [same, absent]
      rfl
    · rfl

theorem ne_of_terminal {u : TaskId} {other : Task} (found : s.tasks.get? t = some task)
    (ended : task.status.terminal = true) (held : s.tasks.get? u = some other)
    (going : other.status.terminal = false) : t ≠ u := by
  rintro rfl
  cases held.symm.trans found
  cases going.symm.trans ended

theorem Grants.keeps {s' : Scheduler} {u : TaskId} (grants : s.Grants u s') (found : s.tasks.get? t = some task)
    (ended : task.status.terminal = true) : s'.tasks.get? t = some task := by
  obtain ⟨w, other, _, held, pending, _, _, rfl⟩ := grants
  rw [get?_grant, if_neg (ne_of_terminal found ended held (by rw [pending]; rfl)), found]

theorem keeps_setTaskStatus {u : TaskId} {status : TaskStatus} (found : s.tasks.get? t = some task)
    (apart : t ≠ u ∨ task.status = status) : (s.setTaskStatus u status).tasks.get? t = some task := by
  rw [get?_setTaskStatus]
  split
  · rename_i same
    obtain rfl := apart.resolve_left (not_not_intro same)
    rw [found]
    rfl
  · exact found

/-- A task that has ended is left alone by every call that does no harm. -/
theorem perform_keeps {call : SchedulerCall} (found : s.tasks.get? t = some task)
    (ended : task.status.terminal = true) (good : s.harmless call = true) :
    (s.perform call).2.tasks.get? t = some task := by
  have idle := idle_of_terminal ended
  cases call with
  | submitTask taskId taskType payload =>
    rw [perform, ended_state]
    rcases s.submitTaskChecked_cases taskId taskType payload with
      ⟨e, refused⟩ | ⟨u, ty, entries, new, _, absent, done⟩
    · rw [refused]
      exact found
    · rw [done, Dict.get?_insert, if_neg, found]
      rintro rfl
      cases absent.symm.trans found
  | assignTask u =>
    rw [perform, ended_state]
    rcases made : s.assignTask u with ⟨e | _, s'⟩
    · rw [assignTask_error made]
      exact found
    · exact (assignTask_ok made).keeps found ended
  | assignNextPendingTask scope =>
    rcases made : s.assignNextPendingTask scope with ⟨_ | u, s'⟩
    · rw [perform, made, assignNextPendingTask_none made]
      exact found
    · rw [perform, made]
      exact (assignNextPendingTask_some made).1.keeps found ended
  | startTask u =>
    rw [perform, ended_state]
    unfold startTask
    split
    · exact found
    · rename_i other held
      split
      · exact found
      · rename_i assigned
        exact keeps_setTaskStatus found (.inl (ne_of_terminal found ended held (by rw [not_not.mp assigned]; rfl)))
  | completeTask u =>
    rw [perform, ended_state]
    unfold completeTask
    split
    · exact found
    · rename_i other held
      split
      · rename_i running
        rw [releaseWorker_tasks]
        refine keeps_setTaskStatus found (.inl ?_)
        rintro rfl
        cases held.symm.trans found
        rw [idle] at running
        cases running
      · exact found
  | failTask u =>
    rw [perform, ended_state]
    unfold failTask
    split
    · exact found
    · rename_i other held
      rw [releaseWorker_tasks]
      refine keeps_setTaskStatus found ?_
      by_cases same : t = u
      · subst same
        cases held.symm.trans found
        simp only [harmless, found, ended, Bool.not_true, Bool.false_or, failsHarmlessly, Bool.and_eq_true,
          decide_eq_true_eq] at good
        exact .inr good.1
      · exact .inl same
  | requeueTasksForWorker w =>
    have same : task.requeued w = task := by simp [Task.requeued, idle]
    rw [perform, get?_requeue, found, Option.map_some, same]
  | registerWorker workerId host port now =>
    simp only [perform]
    split <;> exact found
  | updateStatus w status =>
    rw [perform, ended_state]
    unfold updateStatusChecked
    split
    · exact found
    · unfold updateWorkerStatus
      split <;> exact found
  | getStaleWorkers timeout now => exact found

/-- On a task that has ended, `fail_task` changes neither the record nor a worker's
status exactly when it does no harm. -/
theorem failTask_harmless_iff (found : s.tasks.get? t = some task) (ended : task.status.terminal = true) :
    s.harmless (.failTask t) = true ↔ (s.perform (.failTask t)).2.tasks.get? t = some task ∧
      ∀ w, (s.perform (.failTask t)).2.workers.statusOf w = s.workers.statusOf w := by
  have made : (s.perform (.failTask t)).2 = ((s.setTaskStatus t .failed).releaseWorker task.assignedWorkerId).2 := by
    simp [perform, failTask, found]
  have record : (s.perform (.failTask t)).2.tasks.get? t = some task ↔ task.status = .failed := by
    rw [made, releaseWorker_tasks, get?_setTaskStatus, if_pos rfl, found, Option.map_some, Option.some.injEq]
    exact ⟨fun same => by rw [← same], fun failed => by rw [← failed]⟩
  rw [record, made]
  simp only [harmless, found, ended, Bool.not_true, Bool.false_or, failsHarmlessly, Bool.and_eq_true,
    decide_eq_true_eq]
  refine and_congr_right fun _ => ?_
  cases task.assignedWorkerId with
  | none => exact iff_of_true rfl fun _ => rfl
  | some w =>
    simp only [statusOf_releaseWorker, setTaskStatus_workers]
    constructor
    · intro good v
      split
      · rename_i same
        subst same
        cases status : s.workers.statusOf v with
        | none => rfl
        | some held => cases held <;> simp_all [freed]
      · rfl
    · intro same
      specialize same w
      cases status : s.workers.statusOf w with
      | none => rfl
      | some held => cases held <;> simp_all [freed]

end Terminal

/-- A task that is COMPLETED or FAILED stays as it is through any calls that do no harm.
Then `complete_task` on it changes nothing at all, and `fail_task` on it changes neither
the record nor the status of a worker exactly when it does no harm. -/
theorem terminal_task_kept {s s' : Scheduler} {t : TaskId} {task : Task} (found : s.tasks.get? t = some task)
    (ended : task.status.terminal = true)
    (run : Steps afterCall (fun before call => before.harmless call = true) s s') :
    s'.tasks.get? t = some task ∧ (s'.perform (.completeTask t)).2 = s' ∧
      (s'.harmless (.failTask t) = true ↔ (s'.perform (.failTask t)).2.tasks.get? t = some task ∧
        ∀ w, (s'.perform (.failTask t)).2.workers.statusOf w = s'.workers.statusOf w) := by
  have kept : s'.tasks.get? t = some task := by
    refine run.invariant (I := fun r => r.tasks.get? t = some task) found ?_
    intro before call after held good taken
    cases taken
    exact perform_keeps held ended good
  refine ⟨kept, ?_, failTask_harmless_iff kept ended⟩
  rw [perform, completeTask_of_idle kept (idle_of_terminal ended)]
  rfl

/-- Two tasks in turn on one worker, the first of them completed. -/
def reusedWorkerCalls : List SchedulerCall :=
  [.registerWorker (.str "w") (.str "127.0.0.1") (.int 6001) 0,
    .submitTask (.str "t") (.str "ADD") (.dict []), .submitTask (.str "u") (.str "ADD") (.dict []),
    .assignTask "t", .completeTask "t", .assignTask "u"]

/-- The first task, COMPLETED, and the worker with its second task, after a late
`start_task` and a late `complete_task` of the first. -/
theorem reusedWorkerCalls_kept : ∃ s s', Steps afterCall (fun _ _ => True) ⟨∅, ∅⟩ s ∧
    Steps afterCall (fun before call => before.harmless call = true) s s' ∧
    s.tasks.get? "t" = s'.tasks.get? "t" ∧ (s'.perform (.completeTask "t")).2 = s' := by
  have reached : ∃ s s', Steps afterCall (fun _ _ => True) ⟨∅, ∅⟩ s ∧
      Steps afterCall (fun before call => before.harmless call = true) s s' ∧
      ((s.tasks.get? "t").map (fun task => task.status.terminal)) = some true := by
    exact replay_twice reusedWorkerCalls [.startTask "t", .completeTask "t", .startTask "u"] (by decide)
  obtain ⟨s, s', run, later, ended⟩ := reached
  obtain ⟨task, found, ended⟩ := Option.map_eq_some_iff.mp ended
  obtain ⟨kept, same, _⟩ := terminal_task_kept found ended later
  exact ⟨s, s', run, later, found.trans kept.symm, same⟩

/-- A late `fail_task` turns a COMPLETED task into a FAILED one and hands its worker,
which runs another task by then, back to IDLE. -/
theorem lateFail_frees_worker : ∃ s s', Steps afterCall (fun _ _ => True) ⟨∅, ∅⟩ s ∧
    afterCall s (.failTask "t") = some s' ∧
    (s.tasks.get? "t").map Task.status = some .completed ∧ (s'.tasks.get? "t").map Task.status = some .failed ∧
    (s.tasks.get? "u").map Task.assignedWorkerId = some (some "w") ∧
    (s'.tasks.get? "u").map Task.status = some .assigned ∧
    s.workers.statusOf "w" = some .busy ∧ s'.workers.statusOf "w" = some .idle := by
  exact replay_then reusedWorkerCalls (.failTask "t") (by decide)

end Scheduler
end DistributedCompute
