import DistributedCompute.Effects
import DistributedCompute.Outcomes

/-! Which worker works on which task. A worker holds at most one task in flight,
an IDLE, FAILED or STOPPED one holds none, and a BUSY one holds one. The only
step that can break this is the `finally` block of a connection handler that
declares a DRAINING worker STOPPED while a task is in flight on it: the worker
may then register again as IDLE. -/
namespace DistributedCompute
open Py Relation Transition

/-- The statuses of a worker that holds no task. -/
def WorkerStatus.free : WorkerStatus → Bool
  | .idle | .failed | .stopped => true
  | _ => false

namespace Scheduler

structure Exclusive (s : Scheduler) : Prop where
  known : ∀ t w, s.Holds t w → s.workers.contains w = true
  unique : ∀ t u w, s.Holds t w → s.Holds u w → t = u
  free : ∀ t w status, s.workers.statusOf w = some status → status.free = true → ¬ s.Holds t w
  busy : ∀ w, s.workers.statusOf w = some .busy → ∃ t, s.Holds t w

/-! ### Who holds what after each effect -/

variable {s : Scheduler} {t : TaskId} {task : Task} {w : WorkerId}

theorem holds_submit (absent : s.tasks.get? t = none) (pending : task.status = .pending) (u : TaskId) (w : WorkerId) :
    Holds { s with tasks := s.tasks.insert t task } u w ↔ s.Holds u w := by
  simp only [Holds, Dict.get?_insert]
  by_cases same : u = t
  · subst same
    simp [absent, pending, TaskStatus.inFlight]
  · simp [same]

theorem holds_grant (found : s.tasks.get? t = some task) (pending : task.status = .pending) (u : TaskId)
    (v : WorkerId) :
    (s.grant t w).Holds u v ↔ (u = t ∧ v = w) ∨ s.Holds u v := by
  simp only [Holds, get?_grant]
  by_cases same : u = t
  · subst same
    simp [found, pending, TaskStatus.inFlight, eq_comm (a := w)]
  · simp [same]

theorem holds_start (found : s.tasks.get? t = some task) (assigned : task.status = .assigned) (u : TaskId)
    (v : WorkerId) :
    (s.setTaskStatus t .running).Holds u v ↔ s.Holds u v := by
  simp only [Holds, get?_setTaskStatus]
  by_cases same : u = t
  · subst same
    simp [found, assigned, TaskStatus.inFlight]
  · simp [same]

theorem holds_finish (s : Scheduler) (t : TaskId) (w : WorkerId) {status : TaskStatus}
    (ended : status.terminal = true) (u : TaskId) (v : WorkerId) :
    ((s.setTaskStatus t status).released w).Holds u v ↔ u ≠ t ∧ s.Holds u v := by
  simp only [Holds, released_tasks, get?_setTaskStatus]
  by_cases same : u = t
  · subst same
    have idle : status.inFlight = false := by cases status <;> simp_all [TaskStatus.terminal, TaskStatus.inFlight]
    simp [idle]
  · simp [same]

theorem holds_condemned (s : Scheduler) (w : WorkerId) (u : TaskId) (v : WorkerId) :
    (s.condemned w).Holds u v ↔ v ≠ w ∧ s.Holds u v := by
  simp only [Holds, get?_condemned]
  constructor
  · rintro ⟨after, found, owner, inFlight⟩
    obtain ⟨task, before, rfl⟩ := Option.map_eq_some_iff.mp found
    unfold Task.requeued at owner inFlight
    split at owner
    · cases owner
    · rename_i kept
      rw [if_neg kept] at inFlight
      refine ⟨?_, task, before, owner, inFlight⟩
      rintro rfl
      exact kept ⟨owner, inFlight⟩
  · rintro ⟨other, task, before, owner, inFlight⟩
    exact ⟨task, by rw [before, Option.map_some, requeued_of_other owner other], owner, inFlight⟩

theorem holds_stale (s : Scheduler) (timeout now : Time) (u : TaskId) (v : WorkerId) :
    (s.condemnStale timeout now).2.Holds u v ↔
      v ∉ (s.workers.getStaleWorkers timeout now).1 ∧ s.Holds u v := by
  simp only [Holds, get?_condemnStale]
  constructor
  · rintro ⟨after, found, owner, inFlight⟩
    obtain ⟨task, before, rfl⟩ := Option.map_eq_some_iff.mp found
    split at owner
    · cases owner
    · rename_i kept
      rw [if_neg kept] at inFlight
      refine ⟨fun old => kept ⟨⟨v, old, owner⟩, inFlight⟩, task, before, owner, inFlight⟩
  · rintro ⟨fresh, task, before, owner, inFlight⟩
    refine ⟨task, ?_, owner, inFlight⟩
    rw [before, Option.map_some, if_neg]
    rintro ⟨⟨w, old, mine⟩, _⟩
    rw [owner] at mine
    cases mine
    exact fresh old

/-! ### Every effect keeps exclusivity -/

theorem Exclusive.submit (exclusive : s.Exclusive) (absent : s.tasks.get? t = none)
    (pending : task.status = .pending) : Exclusive { s with tasks := s.tasks.insert t task } := by
  constructor <;> simp only [holds_submit absent pending]
  · exact exclusive.known
  · exact exclusive.unique
  · exact exclusive.free
  · exact exclusive.busy

theorem Exclusive.start (exclusive : s.Exclusive) (found : s.tasks.get? t = some task)
    (assigned : task.status = .assigned) :
    (s.setTaskStatus t .running).Exclusive := by
  constructor <;> simp only [holds_start found assigned]
  · exact exclusive.known
  · exact exclusive.unique
  · exact exclusive.free
  · exact exclusive.busy

theorem Exclusive.grant (exclusive : s.Exclusive) {worker : Worker} (found : s.tasks.get? t = some task)
    (pending : task.status = .pending) (known : s.workers.get? w = some worker) (idle : worker.status = .idle) :
    (s.grant t w).Exclusive := by
  have none : ∀ u, ¬ s.Holds u w := fun u =>
    exclusive.free u w .idle (by simp [WorkerManager.statusOf, known, idle]) rfl
  have still : ∀ u, ¬ s.Holds t u := by
    rintro u ⟨other, there, _, inFlight⟩
    rw [found] at there
    cases there
    rw [pending] at inFlight
    cases inFlight
  constructor <;> simp only [holds_grant found pending, grant_workers, contains_setStatus,
    WorkerManager.statusOf_setStatus]
  · rintro u v (⟨rfl, rfl⟩ | holds)
    · simp [Dict.contains, known]
    · exact exclusive.known u v holds
  · rintro u u' v (⟨rfl, rfl⟩ | one) (⟨rfl, same⟩ | two)
    · rfl
    · exact absurd two (none u')
    · rw [same] at one
      exact absurd one (none u)
    · exact exclusive.unique u u' v one two
  · rintro u v status now free (⟨rfl, rfl⟩ | holds)
    · simp only [if_true, WorkerManager.statusOf, known, Option.map_some, Option.some.injEq] at now
      subst now
      cases free
    · split at now
      · rename_i same
        subst same
        exact none u holds
      · exact exclusive.free u v status now free holds
  · intro v now
    by_cases same : v = w
    · exact ⟨t, .inl ⟨rfl, same⟩⟩
    · rw [if_neg same] at now
      obtain ⟨u, holds⟩ := exclusive.busy v now
      exact ⟨u, .inr holds⟩

/-- Requests touch no task. -/
theorem Exclusive.request (exclusive : s.Exclusive) {message response : Message} {now : Time} {ws : WorkerManager}
    (handled : Handled s.workers message now response ws) :
    Exclusive { s with workers := ws } := by
  have held : ∀ t w, Holds { s with workers := ws } t w ↔ s.Holds t w := fun _ _ => Iff.rfl
  refine ⟨fun t w holds => handled.workers_kept w (exclusive.known t w holds), exclusive.unique, ?_, ?_⟩ <;>
    simp only [held]
  · intro t w status now free holds
    rcases handled.statusOf w with same | ⟨granted, _⟩ | ⟨_, _, _, draining⟩
    · exact exclusive.free t w status (same.symm.trans now) free holds
    · -- the registration took the place of nothing, or of a FAILED or STOPPED record
      obtain ⟨worker, _, _, _, _, replaced⟩ := grantedRegistration_some granted
      rcases replaced with ⟨absent, _⟩ | ⟨old, there, replaceable, _⟩
      · have known := exclusive.known t w holds
        simp [Dict.contains, absent] at known
      · refine exclusive.free t w old.status (by simp [WorkerManager.statusOf, there]) ?_ holds
        cases h : old.status <;> simp_all [WorkerStatus.replaceable, WorkerStatus.free]
    · obtain rfl := Option.some.inj (draining.symm.trans now)
      cases free
  · intro w now
    rcases handled.statusOf w with same | ⟨_, idle⟩ | ⟨_, _, _, draining⟩
    · exact exclusive.busy w (same.symm.trans now)
    · cases idle.symm.trans now
    · cases draining.symm.trans now

theorem statusOf_finished (s : Scheduler) (t : TaskId) (status : TaskStatus) (w v : WorkerId) :
    ((s.setTaskStatus t status).released w).workers.statusOf v =
      if v = w ∧ s.workers.statusOf w ≠ some .draining then (s.workers.statusOf v).map (fun _ => .idle)
      else s.workers.statusOf v := by
  unfold released
  by_cases draining : s.workers.statusOf w = some .draining
  · simp [draining]
  · simp [draining, WorkerManager.statusOf_setStatus]

theorem Exclusive.finish (exclusive : s.Exclusive) {status : TaskStatus} (mine : s.Holds t w)
    (ended : status.terminal = true) :
    ((s.setTaskStatus t status).released w).Exclusive := by
  constructor <;> simp only [holds_finish s t w ended, statusOf_finished]
  · rintro u v ⟨_, holds⟩
    exact (settles_released _ w).workers v (exclusive.known u v holds)
  · rintro u u' v ⟨_, one⟩ ⟨_, two⟩
    exact exclusive.unique u u' v one two
  · rintro u v now status free ⟨other, holds⟩
    by_cases released : v = w ∧ s.workers.statusOf w ≠ some .draining
    · obtain ⟨rfl, _⟩ := released
      exact other (exclusive.unique u t v holds mine)
    · rw [if_neg released] at status
      exact exclusive.free u v now status free holds
  · intro v now
    by_cases kept : v = w ∧ s.workers.statusOf w ≠ some .draining
    · rw [if_pos kept] at now
      obtain ⟨_, _, impossible⟩ := Option.map_eq_some_iff.mp now
      cases impossible
    · rw [if_neg kept] at now
      obtain ⟨u, holds⟩ := exclusive.busy v now
      refine ⟨u, ?_, holds⟩
      rintro rfl
      -- the finished task's worker is only left alone when it is DRAINING
      have same : v = w := by
        obtain ⟨_, found, owner, _⟩ := holds
        obtain ⟨_, found', owner', _⟩ := mine
        rw [found] at found'
        cases found'
        rw [owner] at owner'
        exact Option.some.inj owner'
      subst same
      exact kept ⟨rfl, by rw [now]; decide⟩

/-- Workers taken out of service with what they hold. -/
theorem Exclusive.withdraw {s' : Scheduler} (exclusive : s.Exclusive) (out : WorkerId → Prop)
    (holds : ∀ u v, s'.Holds u v ↔ ¬ out v ∧ s.Holds u v)
    (known : ∀ v, s.workers.contains v = true → s'.workers.contains v = true)
    (kept : ∀ v, ¬ out v → s'.workers.statusOf v = s.workers.statusOf v)
    (gone : ∀ v, out v → s'.workers.statusOf v ≠ some .busy) : s'.Exclusive := by
  constructor <;> simp only [holds]
  · rintro u v ⟨_, held⟩
    exact known v (exclusive.known u v held)
  · rintro u u' v ⟨_, one⟩ ⟨_, two⟩
    exact exclusive.unique u u' v one two
  · rintro u v status now free ⟨there, held⟩
    exact exclusive.free u v status ((kept v there).symm.trans now) free held
  · intro v now
    by_cases there : out v
    · exact absurd now (gone v there)
    · obtain ⟨u, held⟩ := exclusive.busy v ((kept v there).symm.trans now)
      exact ⟨u, there, held⟩

theorem Exclusive.condemn (exclusive : s.Exclusive) (w : WorkerId) : (s.condemned w).Exclusive := by
  refine exclusive.withdraw (fun v => v = w) (holds_condemned s w) ?_ ?_ ?_
  · intro v known
    rw [condemned_workers, contains_setStatus]
    exact known
  · intro v other
    rw [condemned_workers, WorkerManager.statusOf_setStatus, if_neg other]
  · rintro v rfl now
    rw [condemned_workers, WorkerManager.statusOf_setStatus, if_pos rfl] at now
    obtain ⟨_, _, impossible⟩ := Option.map_eq_some_iff.mp now
    cases impossible

theorem statusOf_stale (ws : WorkerManager) (timeout now : Time) (w : WorkerId) :
    (ws.getStaleWorkers timeout now).2.statusOf w =
      if w ∈ (ws.getStaleWorkers timeout now).1 then some .failed else ws.statusOf w := by
  simp only [WorkerManager.statusOf, WorkerManager.get?_staleWorkers, WorkerManager.mem_staleWorkers]
  cases found : ws.get? w with
  | none => simp
  | some worker => cases old : worker.stale timeout now <;> simp [old]

theorem Exclusive.stale (exclusive : s.Exclusive) (timeout now : Time) :
    (s.condemnStale timeout now).2.Exclusive := by
  refine exclusive.withdraw (fun v => v ∈ (s.workers.getStaleWorkers timeout now).1)
    (holds_stale s timeout now) ?_ ?_ ?_
  · intro v known
    rw [condemnStale_workers]
    simpa [Dict.contains, WorkerManager.get?_staleWorkers] using known
  · intro v fresh
    rw [condemnStale_workers, statusOf_stale, if_neg fresh]
  · intro v old now
    rw [condemnStale_workers, statusOf_stale, if_pos old] at now
    cases now

theorem Exclusive.stop (exclusive : s.Exclusive) (none : ∀ t, ¬ s.Holds t w) :
    (s.setWorkerStatus w .stopped).Exclusive := by
  have held : ∀ t v, (s.setWorkerStatus w .stopped).Holds t v ↔ s.Holds t v := fun _ _ => Iff.rfl
  constructor <;> simp only [held, setWorkerStatus_workers, contains_setStatus,
    WorkerManager.statusOf_setStatus]
  · exact exclusive.known
  · exact exclusive.unique
  · intro u v status now free holds
    split at now
    · rename_i same
      subst same
      exact none u holds
    · exact exclusive.free u v status now free holds
  · intro v now
    split at now
    · obtain ⟨_, _, impossible⟩ := Option.map_eq_some_iff.mp now
      cases impossible
    · exact exclusive.busy v now

theorem Exclusive.effect {s' : Scheduler} (exclusive : s.Exclusive)
    (effect : s.Effect (fun s w => ∀ t, ¬ s.Holds t w) s') : s'.Exclusive := by
  cases effect with
  | submit absent pending => exact exclusive.submit absent pending
  | request handled => exact exclusive.request handled
  | grant found pending known idle => exact exclusive.grant found pending known idle
  | start found assigned => exact exclusive.start found assigned
  | finish mine ended => exact exclusive.finish mine ended
  | condemn _ => exact exclusive.condemn _
  | stale timeout now => exact exclusive.stale timeout now
  | stop _ none => exact exclusive.stop none

end Scheduler

namespace Master

/-- A handler's `finally` block declares a DRAINING worker STOPPED while a task
is in flight on it. -/
def stopsBusyWorker (m : Master) (a : Action) : Bool :=
  match m.retiring a with
  | some (link, w) => m.workers.statusOf w = some .draining && !link.hasPending &&
      m.tasks.entries.any (fun e => e.2.assignedWorkerId = some w && e.2.status.inFlight)
  | none => false

def stopsOnlyFree (m : Master) (a : Action) : Prop := m.stopsBusyWorker a = false

instance (m : Master) (a : Action) : Decidable (m.stopsOnlyFree a) :=
  inferInstanceAs (Decidable (m.stopsBusyWorker a = false))

theorem free_of_stopsOnlyFree {m : Master} {a : Action} {link : Link} {w : WorkerId} (good : m.stopsOnlyFree a)
    (retiring : m.retiring a = some (link, w)) (draining : m.workers.statusOf w = some .draining)
    (free : link.hasPending = false) (t : TaskId) : ¬ m.scheduler.Holds t w := by
  rintro ⟨task, found, owner, inFlight⟩
  have busy : m.stopsBusyWorker a = true := by
    simp only [stopsBusyWorker, retiring, draining, free, Bool.and_eq_true, List.any_eq_true]
    refine ⟨by simp, (t, task), Dict.mem_entries.mpr found, ?_⟩
    simp [owner, inFlight]
  rw [good] at busy
  cases busy

theorem exclusive_initial : Scheduler.Exclusive ⟨∅, ∅⟩ := by
  constructor
  · rintro t w ⟨task, found, _⟩
    cases found
  · rintro t u w ⟨task, found, _⟩
    cases found
  · rintro t w status found
    cases found
  · intro w found
    cases found

theorem exclusive_of_run {ok : Master → Action → Prop} {m : Master} (imp : ∀ n a, ok n a → n.stopsOnlyFree a)
    (run : Steps step ok initial m) : m.scheduler.Exclusive := by
  refine scheduler_invariant run exclusive_initial ?_ (fun s s' kept effect => kept.effect effect)
  intro n a link v good retiring draining free t
  exact free_of_stopsOnlyFree (imp n a good) retiring draining free t

/-- A SHUTDOWN request as a worker sends it. -/
def shutdownRequest (w : WorkerId) : Message := ⟨.shutdown, "req-2", [("worker_id", .str w)]⟩

/-- Two workers and one task: `v` works on it, `w` is idle and leaves. -/
def leavingRun : List Action :=
  [.submitTask "t" "ADD" [], .accept, .receive 0 (registerRequest "v") 0, .replySent 0, .accept,
    .receive 1 (registerRequest "w") 0, .replySent 1, .startDispatcher, .dispatcherTick, .startDispatch 0 1000,
    .receive 1 (shutdownRequest "w") 1, .replySent 1, .accept, .receive 2 (registerRequest "w") 2, .replySent 2]

/-- The worker's SHUTDOWN is handled after `t` was assigned to it and before the
dispatch of `t` starts: nothing is pending on the link, so the worker is declared
STOPPED and may register again. -/
def doubleBookingRun : List Action :=
  [.submitTask "t" "ADD" [], .accept, .receive 0 (registerRequest "w") 0, .replySent 0, .startDispatcher,
    .dispatcherTick, .receive 0 (shutdownRequest "w") 1, .replySent 0, .accept,
    .receive 1 (registerRequest "w") 2]

end Master
end DistributedCompute
