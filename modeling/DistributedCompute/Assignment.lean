import DistributedCompute.Scheduler

/-! The two bulk operations of the scheduler as wholes. Repeated assignment pairs
the PENDING tasks with the IDLE workers, both in the order of their dictionaries;
requeueing for a worker takes back what that worker holds and nothing else. -/
namespace DistributedCompute
open Py
namespace Scheduler

/-! ### Repeated assignment -/

/-- The PENDING tasks in scope, oldest first. -/
def pendingTasks (s : Scheduler) (scope : Option (List TaskId)) : List TaskId :=
  s.tasks.keysWhere (fun t task => task.status = .pending && inScope scope t)

/-- The IDLE workers, in the order of their first registration. -/
def idleWorkers (s : Scheduler) : List WorkerId :=
  s.workers.keysWhere (fun _ worker => worker.status = .idle)

theorem pendingTask?_eq_head? (s : Scheduler) (scope : Option (List TaskId)) :
    s.pendingTask? scope = (s.pendingTasks scope).head? := by
  rw [pendingTasks, Dict.keysWhere, List.head?_map, List.head?_filter]
  rfl

theorem idleWorker?_eq_head? (s : Scheduler) : s.idleWorker? = s.idleWorkers.head? := by
  rw [idleWorkers, Dict.keysWhere, List.head?_map, List.head?_filter]
  rfl

variable {s : Scheduler} {scope : Option (List TaskId)} {t : TaskId} {w : WorkerId}

theorem assignNextPendingTask_of_pair {tasks : List TaskId} {workers : List WorkerId}
    (pending : s.pendingTasks scope = t :: tasks) (idle : s.idleWorkers = w :: workers) :
    s.assignNextPendingTask scope = (some t, s.grant t w) := by
  have next : s.pendingTask? scope = some t := by rw [pendingTask?_eq_head?, pending, List.head?_cons]
  have free : s.idleWorker? = some w := by rw [idleWorker?_eq_head?, idle, List.head?_cons]
  obtain ⟨task, found, status, -⟩ := pendingTask?_eq_some next
  simp [assignNextPendingTask, next, assignTask, found, status, free]

theorem assignNextPendingTask_of_none (none : s.pendingTasks scope = [] ∨ s.idleWorkers = []) :
    s.assignNextPendingTask scope = (.none, s) := by
  cases pending : s.pendingTask? scope with
  | none => simp [assignNextPendingTask, pending]
  | some t =>
    obtain ⟨task, found, status, -⟩ := pendingTask?_eq_some pending
    have idle : s.idleWorker? = .none := by
      rcases none with empty | empty
      · rw [pendingTask?_eq_head?, empty] at pending
        cases pending
      · rw [idleWorker?_eq_head?, empty]
        rfl
    simp [assignNextPendingTask, pending, assignTask, found, status, idle]

theorem pendingTasks_grant (s : Scheduler) (scope : Option (List TaskId)) (t : TaskId) (w : WorkerId) :
    (s.grant t w).pendingTasks scope = (s.pendingTasks scope).filter (· ≠ t) := by
  have granted : (s.grant t w).tasks = s.tasks.modify t (fun task =>
    { task with attempt := task.attempt + 1, assignedWorkerId := some w, status := .assigned }) := rfl
  rw [pendingTasks, granted, Dict.keysWhere_modify]
  · rfl
  · intro task
    rfl

theorem idleWorkers_grant (s : Scheduler) (t : TaskId) (w : WorkerId) :
    (s.grant t w).idleWorkers = s.idleWorkers.filter (· ≠ w) := by
  rw [idleWorkers, grant_workers, WorkerManager.setStatus, Dict.keysWhere_modify]
  · rfl
  · intro worker
    rfl

theorem filter_ne_head {α : Type} [DecidableEq α] {first : α} {rest : List α} (nodup : (first :: rest).Nodup) :
    (first :: rest).filter (· ≠ first) = rest := by
  rw [List.filter_cons_of_neg (by simp), List.filter_eq_self]
  intro other member
  have apart : other ≠ first := by
    rintro rfl
    exact (List.nodup_cons.mp nodup).1 member
  simpa using apart

/-- Every pair granted, in order. -/
def grantAll (s : Scheduler) (pairs : List (TaskId × WorkerId)) : Scheduler :=
  pairs.foldl (fun s pair => s.grant pair.1 pair.2) s

/-- The pairs that repeated assignment makes. -/
def pairing (s : Scheduler) (scope : Option (List TaskId)) : List (TaskId × WorkerId) :=
  (s.pendingTasks scope).zip s.idleWorkers

theorem pairing_grant {tasks : List TaskId} {workers : List WorkerId} (pending : s.pendingTasks scope = t :: tasks)
    (idle : s.idleWorkers = w :: workers) : s.pairing scope = (t, w) :: (s.grant t w).pairing scope := by
  have tasksOnce := s.tasks.keysWhere_nodup (fun t task => task.status = .pending && inScope scope t)
  have workersOnce := s.workers.keysWhere_nodup (fun _ worker => worker.status = .idle)
  rw [← pendingTasks, pending] at tasksOnce
  rw [← idleWorkers, idle] at workersOnce
  rw [pairing, pairing, pendingTasks_grant, idleWorkers_grant, pending, idle, filter_ne_head tasksOnce,
    filter_ne_head workersOnce, List.zip_cons_cons]

/-- Calls that outnumber the pairs make all of them, and then one that finds nothing. -/
theorem assignLoop_eq {fuel : Nat} (enough : (s.pairing scope).length < fuel) :
    assignLoop scope fuel s = ((s.pairing scope).map Prod.fst, s.grantAll (s.pairing scope)) := by
  induction fuel generalizing s with
  | zero => cases enough
  | succ fuel ih =>
    cases pending : s.pendingTasks scope with
    | nil =>
      have none : s.pairing scope = [] := by rw [pairing, pending, List.zip_nil_left]
      simp [assignLoop, assignNextPendingTask_of_none (.inl pending), none, grantAll]
    | cons t tasks =>
      cases idle : s.idleWorkers with
      | nil =>
        have none : s.pairing scope = [] := by rw [pairing, idle, List.zip_nil_right]
        simp [assignLoop, assignNextPendingTask_of_none (.inr idle), none, grantAll]
      | cons w workers =>
        rw [pairing_grant pending idle] at enough ⊢
        have rest := ih (Nat.lt_of_succ_lt_succ enough)
        simp [assignLoop, assignNextPendingTask_of_pair pending idle, rest, grantAll]

theorem assignAll_eq (s : Scheduler) (scope : Option (List TaskId)) :
    s.assignAll scope = ((s.pairing scope).map Prod.fst, s.grantAll (s.pairing scope)) := by
  refine assignLoop_eq (Nat.lt_succ_of_le ?_)
  have listed : (s.pendingTasks scope).length ≤ s.tasks.entries.length := by
    have fewer := (s.tasks.keysWhere_sublist
      (fun t task => task.status = .pending && inScope scope t)).length_le
    rwa [Dict.keys, List.length_map] at fewer
  rw [pairing, List.length_zip]
  omega

/-- Nothing is left to pair once all pairs are made. -/
theorem exhausted_grantAll (s : Scheduler) (scope : Option (List TaskId)) :
    (s.grantAll (s.pairing scope)).pendingTasks scope = [] ∨ (s.grantAll (s.pairing scope)).idleWorkers = [] := by
  generalize size : (s.pairing scope).length = count
  induction count generalizing s with
  | zero =>
    have none := List.length_eq_zero_iff.mp size
    rw [none]
    exact List.zip_eq_nil_iff.mp none
  | succ count ih =>
    cases pending : s.pendingTasks scope with
    | nil =>
      rw [pairing, pending] at size
      cases size
    | cons t tasks =>
      cases idle : s.idleWorkers with
      | nil =>
        rw [pairing, idle, List.zip_nil_right] at size
        cases size
      | cons w workers =>
        rw [pairing_grant pending idle] at size ⊢
        exact ih (s.grant t w) (Nat.succ.inj size)

theorem grantAll_tasks (s : Scheduler) (pairs : List (TaskId × WorkerId)) : (s.grantAll pairs).tasks =
    pairs.foldl (fun tasks pair => tasks.modify pair.1 (fun task =>
      { task with attempt := task.attempt + 1, assignedWorkerId := some pair.2, status := .assigned })) s.tasks := by
  induction pairs generalizing s with
  | nil => rfl
  | cons pair rest ih => exact ih (s.grant pair.1 pair.2)

theorem grantAll_workers (s : Scheduler) (pairs : List (TaskId × WorkerId)) : (s.grantAll pairs).workers =
    pairs.foldl (fun workers pair => workers.modify pair.2 (fun worker => { worker with status := .busy }))
      s.workers := by
  induction pairs generalizing s with
  | nil => rfl
  | cons pair rest ih => exact ih (s.grant pair.1 pair.2)

/-- From `s` to `s'` exactly the pairs were assigned: the task is ASSIGNED with one
attempt more and names its worker, the worker is BUSY, and nothing else changed. -/
structure Paired (s : Scheduler) (pairs : List (TaskId × WorkerId)) (s' : Scheduler) : Prop where
  tasks : s'.tasks.keys = s.tasks.keys
  workers : s'.workers.keys = s.workers.keys
  assigned : ∀ pair ∈ pairs, ∃ task, s.tasks.get? pair.1 = some task ∧ s'.tasks.get? pair.1 =
    some { task with attempt := task.attempt + 1, assignedWorkerId := some pair.2, status := .assigned }
  busy : ∀ pair ∈ pairs, ∃ worker, s.workers.get? pair.2 = some worker ∧
    s'.workers.get? pair.2 = some { worker with status := .busy }
  otherTasks : ∀ t ∉ pairs.map Prod.fst, s'.tasks.get? t = s.tasks.get? t
  otherWorkers : ∀ w ∉ pairs.map Prod.snd, s'.workers.get? w = s.workers.get? w

theorem map_fst_zip_sublist {α β : Type} (xs : List α) (ys : List β) : ((xs.zip ys).map Prod.fst).Sublist xs := by
  induction xs generalizing ys with
  | nil => exact .slnil
  | cons x xs ih =>
    cases ys with
    | nil => exact List.nil_sublist _
    | cons y ys => exact (ih ys).cons_cons x

theorem map_snd_zip_sublist {α β : Type} (xs : List α) (ys : List β) : ((xs.zip ys).map Prod.snd).Sublist ys := by
  induction xs generalizing ys with
  | nil => exact List.nil_sublist _
  | cons x xs ih =>
    cases ys with
    | nil => exact .slnil
    | cons y ys => exact (ih ys).cons_cons y

theorem fst_pairing_nodup (s : Scheduler) (scope : Option (List TaskId)) : ((s.pairing scope).map Prod.fst).Nodup :=
  (s.tasks.keysWhere_nodup _).sublist (map_fst_zip_sublist _ _)

theorem snd_pairing_nodup (s : Scheduler) (scope : Option (List TaskId)) : ((s.pairing scope).map Prod.snd).Nodup :=
  (s.workers.keysWhere_nodup _).sublist (map_snd_zip_sublist _ _)

theorem paired_grantAll (s : Scheduler) (scope : Option (List TaskId)) :
    s.Paired (s.pairing scope) (s.grantAll (s.pairing scope)) where
  tasks := by
    rw [grantAll_tasks]
    exact Dict.keys_foldl_modify _ _ _ _
  workers := by
    rw [grantAll_workers]
    exact Dict.keys_foldl_modify _ _ _ _
  assigned := by
    intro pair member
    obtain ⟨task, found, -⟩ := Dict.mem_keysWhere.mp (List.of_mem_zip member).1
    have kept := Dict.get?_foldl_modify_of_mem Prod.fst (fun (pair : TaskId × WorkerId) (task : Task) =>
      { task with attempt := task.attempt + 1, assignedWorkerId := some pair.2, status := .assigned })
      (s.fst_pairing_nodup scope) member s.tasks
    rw [grantAll_tasks]
    exact ⟨task, found, kept.trans (by rw [found]; rfl)⟩
  busy := by
    intro pair member
    obtain ⟨worker, found, -⟩ := Dict.mem_keysWhere.mp (List.of_mem_zip member).2
    have kept := Dict.get?_foldl_modify_of_mem Prod.snd (fun (_ : TaskId × WorkerId) (worker : Worker) =>
      { worker with status := .busy }) (s.snd_pairing_nodup scope) member s.workers
    rw [grantAll_workers]
    exact ⟨worker, found, kept.trans (by rw [found]; rfl)⟩
  otherTasks := by
    intro t other
    rw [grantAll_tasks]
    exact Dict.get?_foldl_modify_of_notMem Prod.fst _ other s.tasks
  otherWorkers := by
    intro w other
    rw [grantAll_workers]
    exact Dict.get?_foldl_modify_of_notMem Prod.snd _ other s.workers

/-! ### The order of the dictionaries -/

theorem keys_submitTask {s' : Scheduler} {taskType : String} {payload : List (Key × Val)} {task : Task}
    (accepted : s.submitTask t taskType payload = (.ok task, s')) : s'.tasks.keys = s.tasks.keys ++ [t] := by
  obtain ⟨absent, -, rfl⟩ := submitTask_ok accepted
  exact Dict.insert_keys_of_absent task absent

theorem keys_requeue (s : Scheduler) (w : WorkerId) : (s.requeueTasksForWorker w).2.tasks.keys = s.tasks.keys :=
  Dict.mapValues_keys s.tasks _

theorem keys_registerWorker {ws ws' : WorkerManager} {workerId host port : Val} {now : Time}
    (registered : ws.registerWorker workerId host port now = .ok (w, ws')) :
    ws'.keys = if w ∈ ws.keys then ws.keys else ws.keys ++ [w] := by
  obtain ⟨-, worker, rfl, -⟩ := WorkerManager.registerWorker_eq_ok registered
  split
  · rename_i known
    exact Dict.insert_keys_of_present worker known
  · rename_i unknown
    exact Dict.insert_keys_of_absent worker (Dict.get?_eq_none.mpr unknown)

theorem pendingTasks_eq_nil : s.pendingTasks scope = [] ↔
    ∀ t task, s.tasks.get? t = some task → task.status = .pending → inScope scope t = false := by
  rw [List.eq_nil_iff_forall_not_mem]
  constructor
  · intro none t task found pending
    by_contra within
    exact none t (Dict.mem_keysWhere.mpr ⟨task, found, by simpa [pending] using within⟩)
  · intro none t member
    obtain ⟨task, found, holds⟩ := Dict.mem_keysWhere.mp member
    simp only [Bool.and_eq_true, decide_eq_true_eq] at holds
    rw [none t task found holds.1] at holds
    cases holds.2

theorem idleWorkers_eq_nil : s.idleWorkers = [] ↔
    ∀ w worker, s.workers.get? w = some worker → worker.status ≠ .idle := by
  rw [List.eq_nil_iff_forall_not_mem]
  constructor
  · intro none w worker found idle
    exact none w (Dict.mem_keysWhere.mpr ⟨worker, found, by simpa using idle⟩)
  · intro none w member
    obtain ⟨worker, found, idle⟩ := Dict.mem_keysWhere.mp member
    exact none w worker found (by simpa using idle)

theorem assignNextPendingTask_eq_none :
    (s.assignNextPendingTask scope).1 = none ↔ s.pendingTasks scope = [] ∨ s.idleWorkers = [] := by
  constructor
  · intro nothing
    cases pending : s.pendingTasks scope with
    | nil => exact .inl rfl
    | cons t tasks =>
      cases idle : s.idleWorkers with
      | nil => exact .inr rfl
      | cons w workers =>
        rw [assignNextPendingTask_of_pair pending idle] at nothing
        cases nothing
  · intro none
    rw [assignNextPendingTask_of_none none]

/-- One call assigns nothing, and changes nothing, exactly when no PENDING task in
scope or no IDLE worker is there. The calls up to the first one that assigns
nothing pair the tasks with the workers, first with first: a new task or worker
goes last in its dictionary, and a requeued task or a worker that registers again
keeps its place. -/
theorem assignment_fifo (s : Scheduler) (scope : Option (List TaskId)) :
    ((s.assignNextPendingTask scope).1 = none ↔
      (∀ t task, s.tasks.get? t = some task → task.status = .pending → inScope scope t = false) ∨
      ∀ w worker, s.workers.get? w = some worker → worker.status ≠ .idle) ∧
    ((s.assignNextPendingTask scope).1 = none → (s.assignNextPendingTask scope).2 = s) ∧
    (∀ fuel, (s.pairing scope).length < fuel → assignLoop scope fuel s = s.assignAll scope) ∧
    (s.assignAll scope).2.assignNextPendingTask scope = (none, (s.assignAll scope).2) ∧
    (s.assignAll scope).1 = (s.pairing scope).map Prod.fst ∧
    s.Paired (s.pairing scope) (s.assignAll scope).2 ∧
    (∀ t taskType payload task s', s.submitTask t taskType payload = (.ok task, s') →
      s'.tasks.keys = s.tasks.keys ++ [t]) ∧
    (∀ w, (s.requeueTasksForWorker w).2.tasks.keys = s.tasks.keys) ∧
    ∀ workerId host port now w ws, s.workers.registerWorker workerId host port now = .ok (w, ws) →
      ws.keys = if w ∈ s.workers.keys then s.workers.keys else s.workers.keys ++ [w] := by
  have all := s.assignAll_eq scope
  refine ⟨?_, ?_, ?_, ?_, ?_, ?_, ?_, s.keys_requeue, ?_⟩
  · rw [assignNextPendingTask_eq_none, pendingTasks_eq_nil, idleWorkers_eq_nil]
  · intro nothing
    rw [assignNextPendingTask_of_none (assignNextPendingTask_eq_none.mp nothing)]
  · intro fuel enough
    rw [assignLoop_eq enough, all]
  · rw [all]
    exact assignNextPendingTask_of_none (s.exhausted_grantAll scope)
  · rw [all]
  · rw [all]
    exact s.paired_grantAll scope
  · intro t taskType payload task s' accepted
    exact keys_submitTask accepted
  · intro workerId host port now w ws registered
    exact keys_registerWorker registered

/-! ### Requeueing -/

theorem requeued_again (task : Task) (w : WorkerId) : (task.requeued w).requeued w = task.requeued w := by
  by_cases held : task.assignedWorkerId = some w ∧ task.status.inFlight = true
  · have taken : task.requeued w = task.takenBack := if_pos held
    rw [taken, Task.requeued, if_neg]
    rintro ⟨-, busy⟩
    rw [takenBack_inFlight] at busy
    cases busy
  · have same : task.requeued w = task := if_neg held
    rw [same, same]

/-- A task is taken back from the one worker that holds it, whatever the order. -/
theorem requeued_comm (task : Task) (u w : WorkerId) :
    (task.requeued u).requeued w = (task.requeued w).requeued u := by
  have first := foldl_requeued [u, w] task
  have second := foldl_requeued [w, u] task
  simp only [List.foldl_cons, List.foldl_nil, List.mem_cons, List.not_mem_nil, or_false, exists_eq_or_imp,
    exists_eq_left] at first second
  rw [first, second]
  simp only [or_comm]

theorem requeued_notHeld (task : Task) (w : WorkerId) (busy : (task.requeued w).status.inFlight = true) :
    (task.requeued w).assignedWorkerId ≠ some w := by
  have notHeld := kept_of_inFlight busy
  have kept : task.requeued w = task := if_neg notHeld
  rw [kept] at busy ⊢
  intro owner
  exact notHeld ⟨owner, busy⟩

theorem requeue_twice (s : Scheduler) (u w : WorkerId) :
    ((s.requeueTasksForWorker u).2.requeueTasksForWorker w).2.tasks =
    s.tasks.mapValues (fun _ task => (task.requeued u).requeued w) := by
  refine Dict.ext ?_
  simp only [requeueTasksForWorker, Dict.mapValues, List.map_map, Function.comp_def]

theorem requeue_returned (s : Scheduler) (w : WorkerId) : (s.requeueTasksForWorker w).1 =
    s.tasks.keysWhere (fun _ task =>
      task.assignedWorkerId = some w ∧ task.status.inFlight = true ∧ task.attempt < maxTaskAttempts) := rfl

theorem mem_requeue : t ∈ (s.requeueTasksForWorker w).1 ↔
    ∃ task, s.tasks.get? t = some task ∧ task.assignedWorkerId = some w ∧ task.status.inFlight = true ∧
      task.takenBack.status = .pending := by
  rw [requeue_returned, Dict.mem_keysWhere]
  simp only [decide_eq_true_eq, Task.takenBack]
  refine exists_congr fun task => and_congr_right fun _ => and_congr_right fun _ => and_congr_right fun _ => ?_
  split
  · simp only [reduceCtorEq, iff_false]
    omega
  · simp only [iff_true]
    omega

theorem requeue_nothing
    (free : ∀ t task, s.tasks.get? t = some task → task.status.inFlight = true → task.assignedWorkerId ≠ some w) :
    (s.requeueTasksForWorker w).1 = [] := by
  rw [List.eq_nil_iff_forall_not_mem]
  intro t member
  obtain ⟨task, found, owner, busy, -⟩ := mem_requeue.mp member
  exact free t task found busy owner

theorem requeue_free (s : Scheduler) (w : WorkerId) (t : TaskId) (task : Task)
    (found : (s.requeueTasksForWorker w).2.tasks.get? t = some task) (busy : task.status.inFlight = true) :
    task.assignedWorkerId ≠ some w := by
  rw [get?_requeue] at found
  obtain ⟨before, -, rfl⟩ := Option.map_eq_some_iff.mp found
  exact requeued_notHeld before w busy

/-- `requeue_tasks_for_worker(w)` takes back the ASSIGNED and RUNNING tasks of `w`,
touches nothing else and returns, oldest first, those it made PENDING. It leaves
no such task, so a second call does nothing; and calls for two workers commute. -/
theorem requeueTasksForWorker_exact (s : Scheduler) (u w : WorkerId) :
    (∀ t, (s.requeueTasksForWorker w).2.tasks.get? t = (s.tasks.get? t).map (fun task =>
      if task.assignedWorkerId = some w ∧ task.status.inFlight = true then
        { task with
          assignedWorkerId := none
          status := if maxTaskAttempts ≤ task.attempt then .failed else .pending }
      else task)) ∧
    (s.requeueTasksForWorker w).2.tasks.keys = s.tasks.keys ∧
    (s.requeueTasksForWorker w).2.workers = s.workers ∧
    (s.requeueTasksForWorker w).1.Sublist s.tasks.keys ∧
    (∀ t, t ∈ (s.requeueTasksForWorker w).1 ↔ ∃ task taken, s.tasks.get? t = some task ∧
      task.assignedWorkerId = some w ∧ task.status.inFlight = true ∧
      (s.requeueTasksForWorker w).2.tasks.get? t = some taken ∧ taken.status = .pending) ∧
    (s.requeueTasksForWorker w).2.requeueTasksForWorker w = ([], (s.requeueTasksForWorker w).2) ∧
    ((s.requeueTasksForWorker u).2.requeueTasksForWorker w).2 =
      ((s.requeueTasksForWorker w).2.requeueTasksForWorker u).2 ∧
    ∀ t task, (s.requeueTasksForWorker w).2.tasks.get? t = some task → task.status.inFlight = true →
      task.assignedWorkerId ≠ some w := by
  refine ⟨s.get?_requeue w, s.keys_requeue w, rfl, ?_, ?_, ?_, ?_, s.requeue_free w⟩
  · rw [requeue_returned]
    exact s.tasks.keysWhere_sublist _
  · intro t
    rw [mem_requeue]
    constructor
    · rintro ⟨task, found, owner, busy, pending⟩
      refine ⟨task, task.takenBack, found, owner, busy, ?_, pending⟩
      rw [get?_requeue, found, Option.map_some, Task.requeued, if_pos ⟨owner, busy⟩]
    · rintro ⟨task, taken, found, owner, busy, after, pending⟩
      rw [get?_requeue, found, Option.map_some, Task.requeued, if_pos ⟨owner, busy⟩] at after
      rw [← Option.some.inj after] at pending
      exact ⟨task, found, owner, busy, pending⟩
  · refine Prod.ext (requeue_nothing (s.requeue_free w)) ?_
    have same : ((s.requeueTasksForWorker w).2.requeueTasksForWorker w).2.tasks =
        (s.requeueTasksForWorker w).2.tasks := by
      rw [requeue_twice]
      simp only [requeued_again]
      rfl
    rw [Scheduler.mk.injEq]
    exact ⟨rfl, same⟩
  · have same : ((s.requeueTasksForWorker u).2.requeueTasksForWorker w).2.tasks =
        ((s.requeueTasksForWorker w).2.requeueTasksForWorker u).2.tasks := by
      rw [requeue_twice, requeue_twice]
      simp only [requeued_comm]
    rw [Scheduler.mk.injEq]
    exact ⟨rfl, same⟩

end Scheduler
end DistributedCompute
