import DistributedCompute.Connections

/-! Workers out of service. Only IDLE workers are given tasks, and a completed
task puts its worker back to IDLE unless it is DRAINING. A FAILED worker stays out
because none of its attempts is current any more: whatever marks it FAILED takes
its tasks back at once. -/
namespace DistributedCompute
open Py Relation Transition

namespace Scheduler

def FailedFree (s : Scheduler) : Prop := ∀ t w, s.workers.statusOf w = some .failed → ¬ s.Holds t w

theorem FailedFree.grant {s : Scheduler} (free : s.FailedFree) {t : TaskId} {w : WorkerId} {task : Task}
    (found : s.tasks.get? t = some task) (pending : task.status = .pending) : (s.grant t w).FailedFree := by
  intro u v failed holds
  rw [grant_workers, WorkerManager.statusOf_setStatus] at failed
  rcases (holds_grant found pending u v).mp holds with ⟨_, rfl⟩ | before
  · rw [if_pos rfl] at failed
    obtain ⟨_, _, impossible⟩ := Option.map_eq_some_iff.mp failed
    cases impossible
  · split at failed
    · obtain ⟨_, _, impossible⟩ := Option.map_eq_some_iff.mp failed
      cases impossible
    · exact free u v failed before

theorem FailedFree.effect {s s' : Scheduler} (free : s.FailedFree) (effect : s.Effect (fun _ _ => True) s') :
    s'.FailedFree := by
  cases effect with
  | submit absent pending =>
    intro u v failed holds
    exact free u v failed ((holds_submit absent pending u v).mp holds)
  | request handled =>
    intro u v failed holds
    rcases handled.statusOf v with same | ⟨_, idle⟩ | ⟨_, _, _, draining⟩
    · exact free u v (same.symm.trans failed) holds
    · simp [idle] at failed
    · simp [draining] at failed
  | grant found pending _ _ => exact free.grant found pending
  | start found assigned =>
    intro u v failed holds
    exact free u v failed ((holds_start found assigned u v).mp holds)
  | @finish t w status mine ended =>
    intro u v failed holds
    obtain ⟨_, before⟩ := (holds_finish s t w ended u v).mp holds
    rw [statusOf_finished] at failed
    split at failed
    · obtain ⟨_, _, impossible⟩ := Option.map_eq_some_iff.mp failed
      cases impossible
    · exact free u v failed before
  | @condemn t w _ =>
    intro u v failed holds
    obtain ⟨other, before⟩ := (holds_condemned s w u v).mp holds
    rw [condemned_workers, WorkerManager.statusOf_setStatus, if_neg other] at failed
    exact free u v failed before
  | stale timeout now =>
    intro u v failed holds
    obtain ⟨fresh, before⟩ := (holds_stale s timeout now u v).mp holds
    rw [condemnStale_workers, statusOf_stale, if_neg fresh] at failed
    exact free u v failed before
  | @stop w _ _ =>
    intro u v failed holds
    rw [setWorkerStatus_workers, WorkerManager.statusOf_setStatus] at failed
    split at failed
    · obtain ⟨_, _, impossible⟩ := Option.map_eq_some_iff.mp failed
      cases impossible
    · exact free u v failed holds

end Scheduler

namespace Master
variable {m m' : Master} {ws : WorkerManager} {w : WorkerId} {a : Action}

theorem failedFree_of_run {ok : Master → Action → Prop} (run : Steps step ok initial m) :
    m.scheduler.FailedFree :=
  @scheduler_invariant _ (fun _ _ => True) _ _ run (fun _ _ failed => by cases failed)
    (fun _ _ _ _ _ _ _ _ => trivial) (fun _ _ free effect => free.effect effect)

/-! ### The status of one worker -/

/-- A DRAINING worker is granted no REGISTER. -/
theorem not_granted_of_draining {ws' : WorkerManager} {message : Message} {now : Time}
    (draining : ws.statusOf w = some .draining) : grantedRegistration ws message now ≠ some (w, ws') := by
  intro granted
  obtain ⟨_, _, _, _, _, absent | ⟨old, there, replaceable, _⟩⟩ := grantedRegistration_some granted
  · simp [WorkerManager.statusOf, absent.1] at draining
  · simp only [WorkerManager.statusOf, there, Option.map_some, Option.some.injEq] at draining
    rw [draining] at replaceable
    cases replaceable

/-- What a move does to a DRAINING worker, and how. -/
theorem Roster.draining (roster : Roster m a ws) (before : m.workers.statusOf w = some .draining) :
    ws.statusOf w = some .draining ∨
    (ws.statusOf w = some .stopped ∧ ∃ link, m.retiring a = some (link, w) ∧ link.hasPending = false) ∨
    (ws.statusOf w = some .failed ∧ ∃ caller, (w, caller) ∈ m.requeueCalls a) := by
  cases roster with
  | same => exact .inl before
  | request _ handled =>
    rcases handled.statusOf w with same | ⟨granted, _⟩ | ⟨_, _, _, draining⟩
    · exact .inl (same.trans before)
    · exact absurd granted (not_granted_of_draining before)
    · exact .inl draining
  | @stop link v retiring _ free =>
    rw [WorkerManager.statusOf_setStatus, before]
    by_cases same : w = v
    · subst same
      exact .inr (.inl ⟨by rw [if_pos rfl]; rfl, link, retiring, free⟩)
    · exact .inl (if_neg same)
  | @release t v _ notDraining =>
    rw [WorkerManager.statusOf_setStatus, if_neg]
    · exact .inl before
    · rintro rfl
      exact notDraining before
  | @condemn t v _ called =>
    rw [WorkerManager.statusOf_setStatus, before]
    by_cases same : w = v
    · subst same
      exact .inr (.inr ⟨by rw [if_pos rfl]; rfl, some t, called⟩)
    · exact .inl (if_neg same)
  | @stale i now tick =>
    subst tick
    rw [Scheduler.statusOf_stale]
    by_cases stale : w ∈ (m.workers.getStaleWorkers heartbeatTimeout now).1
    · exact .inr (.inr ⟨if_pos stale, none, List.mem_map.mpr ⟨w, stale, rfl⟩⟩)
    · exact .inl ((if_neg stale).trans before)

theorem Roster.failed (free : m.scheduler.FailedFree) (roster : Roster m a ws)
    (before : m.workers.statusOf w = some .failed) :
    ws.statusOf w = some .failed ∨ (ws.statusOf w = some .idle ∧ ∃ l message now,
      a = .receive l message now ∧ grantedRegistration m.workers message now = some (w, ws)) := by
  cases roster with
  | same => exact .inl before
  | @request l message response now _ received handled =>
    rcases handled.statusOf w with same | ⟨granted, idle⟩ | ⟨status, was, live, _⟩
    · exact .inl (same.trans before)
    · exact .inr ⟨idle, l, message, now, received, granted⟩
    · rw [before] at was
      cases was
      cases live
  | @stop link v _ draining _ =>
    rw [WorkerManager.statusOf_setStatus, if_neg]
    · exact .inl before
    · rintro rfl
      simp [before] at draining
  | @release t v mine _ =>
    rw [WorkerManager.statusOf_setStatus, if_neg]
    · exact .inl before
    · rintro rfl
      exact free t w before mine
  | condemn _ _ =>
    rw [WorkerManager.statusOf_setStatus, before]
    split <;> exact .inl rfl
  | stale _ =>
    rw [Scheduler.statusOf_stale]
    split
    · exact .inl rfl
    · exact .inl before

theorem Roster.generationOf (roster : Roster m a ws) (w : WorkerId) :
    ws.generationOf w = m.workers.generationOf w ∨ ws.generationOf w = m.workers.generationOf w + 1 := by
  cases roster with
  | same => exact .inl rfl
  | request _ handled =>
    cases handled with
    | @registered v _ granted _ =>
      rw [(generationOf_registered granted).2]
      by_cases same : w = v
      · subst same
        exact .inr (Function.update_self ..)
      · exact .inl (Function.update_of_ne same ..)
    | unchanged _ _ => exact .inl rfl
    | beat _ _ _ _ => exact .inl (generationOf_beat ..)
    | drained _ _ _ _ _ => exact .inl (generationOf_setStatus ..)
  | stop _ _ _ | release _ _ | condemn _ _ => exact .inl (generationOf_setStatus ..)
  | stale _ => exact .inl (generationOf_stale ..)

/-- A STOPPED worker without a task in flight stays so until it registers again. -/
theorem Roster.stopped (roster : Roster m a ws) (free : ∀ t, ¬ m.scheduler.Holds t w)
    (before : m.workers.statusOf w = some .stopped) :
    ws.statusOf w = some .stopped ∨
      ∃ l message now, a = .receive l message now ∧ grantedRegistration m.workers message now = some (w, ws) := by
  have other : ∀ v status, (w = v → False) → (m.workers.setStatus v status).statusOf w = some .stopped := by
    intro v status apart
    rw [WorkerManager.statusOf_setStatus, if_neg apart]
    exact before
  cases roster with
  | same => exact .inl before
  | @request l message response now _ received handled =>
    rcases handled.statusOf w with same | ⟨granted, _⟩ | ⟨status, was, live, _⟩
    · exact .inl (same.trans before)
    · exact .inr ⟨l, message, now, received, granted⟩
    · rw [before] at was
      cases was
      cases live
  | stop _ draining _ => exact .inl (other _ _ (by rintro rfl; simp [before] at draining))
  | release held _ => exact .inl (other _ _ (by rintro rfl; exact free _ held))
  | condemn held _ => exact .inl (other _ _ (by rintro rfl; exact free _ held))
  | @stale i now _ =>
    rw [Scheduler.statusOf_stale, if_neg]
    · exact .inl before
    · intro stale
      obtain ⟨worker, there, old⟩ := WorkerManager.mem_staleWorkers.mp stale
      simp only [WorkerManager.statusOf, there, Option.map_some, Option.some.injEq] at before
      simp only [Worker.stale] at old
      split at old
      · cases old
      · simp [before] at old

/-! ### The loops -/

theorem loops_statusOf (loops : ReflTransGen Loop m m') (w : WorkerId) :
    m'.workers.statusOf w = m.workers.statusOf w ∨
      (m.workers.statusOf w = some .idle ∧ m'.workers.statusOf w = some .busy) := by
  induction loops with
  | refl => exact .inl rfl
  | tail _ loop ih =>
    rcases loop.statusOf w with same | ⟨idle, busy⟩
    · rw [same]
      exact ih
    · rcases ih with unchanged | ⟨_, taken⟩
      · exact .inr ⟨unchanged.symm.trans idle, busy⟩
      · simp [taken] at idle

theorem loops_generationOf (loops : ReflTransGen Loop m m') (w : WorkerId) :
    m'.workers.generationOf w = m.workers.generationOf w := by
  induction loops with
  | refl => rfl
  | tail _ loop ih =>
    cases loop with
    | grant _ _ _ _ => rw [← ih, Master.workers, Scheduler.grant_workers, generationOf_setStatus]
    | spawn _ | loops _ _ _ => exact ih

/-- A task that the loops leave in flight was so before, or went to a worker that
was IDLE and is now BUSY. -/
theorem loops_assigned (loops : ReflTransGen Loop m m') {t : TaskId} {task' : Task}
    (found : m'.tasks.get? t = some task') (owner : task'.assignedWorkerId = some w)
    (held : task'.status.inFlight = true) :
    m.tasks.get? t = some task' ∨ (m.workers.statusOf w = some .idle ∧ m'.workers.statusOf w = some .busy) := by
  induction loops with
  | refl => exact .inl found
  | @tail mid last before loop ih =>
    have later : mid.tasks.get? t = some task' →
        m.tasks.get? t = some task' ∨
          (m.workers.statusOf w = some .idle ∧ last.workers.statusOf w = some .busy) := by
      intro there
      rcases ih there with unchanged | ⟨idle, busy⟩
      · exact .inl unchanged
      · rcases loop.statusOf w with same | ⟨free, _⟩
        · exact .inr ⟨idle, same.trans busy⟩
        · simp [busy] at free
    cases loop with
    | spawn _ | loops _ _ _ => exact later found
    | @grant u v _ worker _ _ known free =>
      have lookup := Scheduler.get?_grant mid.scheduler u t v
      by_cases same : t = u
      · rw [if_pos same, found] at lookup
        obtain ⟨_, _, granted⟩ := Option.map_eq_some_iff.mp lookup.symm
        subst granted
        cases owner
        have idle : mid.workers.statusOf w = some .idle := by simp [WorkerManager.statusOf, known, free]
        rcases loops_statusOf before w with unchanged | ⟨_, busy⟩
        · refine .inr ⟨unchanged.symm.trans idle, ?_⟩
          rw [Master.workers, Scheduler.grant_workers, WorkerManager.statusOf_setStatus, if_pos rfl, idle]
          rfl
        · simp [busy] at idle
      · rw [if_neg same, found] at lookup
        exact later lookup.symm

/-! ### One step -/

theorem step_generationOf (fenced : m.Fenced) (taken : m.step a = some m') (w : WorkerId) :
    m'.workers.generationOf w = m.workers.generationOf w ∨
      m'.workers.generationOf w = m.workers.generationOf w + 1 := by
  obtain ⟨mid, move, loops⟩ := step_split taken
  rw [loops_generationOf loops w]
  exact (move.roster fenced).generationOf w

theorem step_assigned (taken : m.step a = some m') {t : TaskId} {task' : Task} (found : m'.tasks.get? t = some task')
    (owner : task'.assignedWorkerId = some w) (held : task'.status.inFlight = true) :
    (∃ task, m.tasks.get? t = some task ∧ task.assignedWorkerId = some w ∧ task.status.inFlight = true ∧
      task.attempt = task'.attempt) ∨
    ((m.assigning a).workers.statusOf w = some .idle ∧ m'.workers.statusOf w = some .busy) := by
  have before : ∀ mid, Micro m a mid → mid.tasks.get? t = some task' → ∃ task, m.tasks.get? t = some task ∧
      task.assignedWorkerId = some w ∧ task.status.inFlight = true ∧ task.attempt = task'.attempt := by
    intro mid move there
    obtain ⟨task, was, inFlight, same, attempt⟩ := move.settles.tasks t task' there held
    exact ⟨task, was, same.trans owner, inFlight, attempt⟩
  rcases step_cases taken with move | ⟨move, loops⟩
  · exact .inl (before m' move found)
  · rcases loops_assigned loops found owner held with there | assigned
    · exact .inl (before _ move there)
    · exact .inr assigned

theorem idle_of_assigning (idle : (m.assigning a).workers.statusOf w = some .idle) :
    m.workers.statusOf w = some .idle := by
  cases a with
  | monitorTick i now =>
    rw [assigning, Master.workers, condemnedStale, Scheduler.condemnStale_workers, Scheduler.statusOf_stale] at idle
    split at idle
    · cases idle
    · exact idle
  | _ => exact idle

theorem step_draining (fenced : m.Fenced) (taken : m.step a = some m')
    (before : m.workers.statusOf w = some .draining) :
    m'.workers.statusOf w = some .draining ∨
    (m'.workers.statusOf w = some .stopped ∧ ∃ link, m.retiring a = some (link, w) ∧ link.hasPending = false) ∨
    (m'.workers.statusOf w = some .failed ∧ ∃ caller, (w, caller) ∈ m.requeueCalls a) := by
  obtain ⟨mid, move, loops⟩ := step_split taken
  have moved := (move.roster fenced).draining before
  rcases loops_statusOf loops w with same | ⟨idle, _⟩
  · rw [same]
    exact moved
  · simp [idle] at moved

theorem step_failed (fenced : m.Fenced) (free : m.scheduler.FailedFree) (taken : m.step a = some m')
    (before : m.workers.statusOf w = some .failed) :
    m'.workers.statusOf w = some .failed ∨ (m'.workers.statusOf w = some .idle ∧ ∃ l message now,
      a = .receive l message now ∧ grantedRegistration m.workers message now = some (w, m'.workers)) := by
  rcases step_cases taken with move | ⟨move, loops⟩
  · exact (move.roster fenced).failed free before
  · have still : (m.assigning a).workers.statusOf w = some .failed := by
      rcases (move.roster fenced).failed free before with failed | ⟨idle, _, _, _, rfl, _⟩
      · exact failed
      · exact before
    rcases loops_statusOf loops w with same | ⟨idle, _⟩
    · exact .inl (same.trans still)
    · simp [still] at idle

theorem step_stopped (fenced : m.Fenced) (taken : m.step a = some m') (free : ∀ t, ¬ m.scheduler.Holds t w)
    (before : m.workers.statusOf w = some .stopped) :
    m'.workers.statusOf w = some .stopped ∨ ∃ l message now ws, a = .receive l message now ∧
      grantedRegistration m.workers message now = some (w, ws) := by
  obtain ⟨mid, move, loops⟩ := step_split taken
  rcases (move.roster fenced).stopped free before with still | ⟨l, message, now, received, granted⟩
  · rcases loops_statusOf loops w with same | ⟨idle, _⟩
    · exact .inl (same.trans still)
    · simp [still] at idle
  · exact .inr ⟨l, message, now, _, received, granted⟩

/-- Worker `w` misses its heartbeats while it runs `t`. -/
def silentRun : List Action :=
  [.submitTask "t" "ADD" [], .accept, .receive 0 (registerRequest "w") 0, .replySent 0, .startDispatcher,
    .dispatcherTick, .startDispatch 0 1000, .startMonitor, .monitorTick 0 6000, .accept]

end Master
end DistributedCompute
