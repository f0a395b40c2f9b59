import DistributedCompute.Connections

/-! Which workers have a connection. `register_worker` takes a worker that is
neither FAILED nor STOPPED to have one. This holds as long as every way a link
leaves the table also takes its worker out of service: by the STOPPED status of a
drained worker, or by a send that fails with the link and condemns the worker. -/
namespace DistributedCompute
open Py Relation Transition

/-- A worker that a second registration must not replace. -/
def WorkerManager.live (ws : WorkerManager) (w : WorkerId) : Bool :=
  (ws.statusOf w).any (fun status => !status.replaceable)

def Reply.isMessage : Reply → Bool
  | .message _ => true
  | _ => false

/-- A call inside `send_task` whose future has failed. -/
def DispatchPc.broken : DispatchPc → Bool
  | .sending _ _ _ _ (.failed _) => true
  | _ => false

/-- The worker a suspended call is about. -/
def DispatchPc.worker? : DispatchPc → Option WorkerId
  | .sending _ w _ _ _ | .closing w _ _ => some w
  | _ => none

namespace Master

/-- `w` has a link in the table, or a handler is about to put one there. -/
def Reached (m : Master) (w : WorkerId) : Prop :=
  (m.seats.seat w).isSome = true ∨ ∃ l, m.seats.claim l = some w

/-- A failed send of the task in flight on `w` has yet to condemn it. -/
def Doomed (m : Master) (w : WorkerId) : Prop :=
  ∃ (d : DispatchId) (t : TaskId) (l : LinkId) (attempt : Nat) (drained : Bool) (reason : String) (task : Task),
    m.dispatches[d]? = some ⟨t, .sending l w attempt drained (.failed reason)⟩ ∧
    m.tasks.get? t = some task ∧ task.assignedWorkerId = some w ∧ task.attempt = attempt ∧ task.status ≠ .pending

def Seated (m : Master) : Prop := ∀ w, m.workers.live w = true → m.Reached w ∨ m.Doomed w

/-! ### What keeps a worker doomed -/

variable {m m' : Master} {w v : WorkerId} {d : DispatchId} {dispatch : Dispatch} {t : TaskId} {l : LinkId}
  {attempt : Nat} {ws : WorkerManager} {response : Message} {pc : DispatchPc} {a : Action} {link : Link}

theorem Doomed.frame (doomed : m.Doomed w) (dispatches : ∀ (d : DispatchId) t l attempt drained reason,
      m.dispatches[d]? = some ⟨t, .sending l w attempt drained (.failed reason)⟩ →
      ∃ drained', m'.dispatches[d]? = some ⟨t, .sending l w attempt drained' (.failed reason)⟩)
    (tasks : ∀ t task, m.tasks.get? t = some task → task.assignedWorkerId = some w → task.status ≠ .pending →
      ∃ task', m'.tasks.get? t = some task' ∧ task'.assignedWorkerId = some w ∧
        task'.attempt = task.attempt ∧ task'.status ≠ .pending) : m'.Doomed w := by
  obtain ⟨d, t, l, attempt, drained, reason, task, sending, found, owner, same, started⟩ := doomed
  obtain ⟨drained', still⟩ := dispatches d t l attempt drained reason sending
  obtain ⟨task', found', owner', attempt', started'⟩ := tasks t task found owner started
  exact ⟨d, t, l, attempt, drained', reason, task', still, found', owner', attempt'.trans same, started'⟩

theorem Doomed.congr (doomed : m.Doomed w) (dispatches : m'.dispatches = m.dispatches) (tasks : m'.tasks = m.tasks) :
    m'.Doomed w := by
  rw [Doomed, dispatches, tasks]
  exact doomed

/-- Another call may change its program counter. -/
theorem broken_setDispatch {e : DispatchId} (pc : DispatchPc) {drained : Bool} {reason : String}
    (there : m.dispatches[d]? = some dispatch) (whole : dispatch.pc.broken = false)
    (sending : m.dispatches[e]? = some ⟨t, .sending l w attempt drained (.failed reason)⟩) :
    (m.setDispatch d pc).dispatches[e]? = some ⟨t, .sending l w attempt drained (.failed reason)⟩ := by
  rw [dispatches_setDispatch, if_neg, sending]
  rintro rfl
  rw [there, Option.some.injEq] at sending
  rw [sending] at whole
  cases whole

theorem Doomed.setDispatch (doomed : m.Doomed w) (pc : DispatchPc) (there : m.dispatches[d]? = some dispatch)
    (whole : dispatch.pc.broken = false) : (m.setDispatch d pc).Doomed w :=
  doomed.frame (fun _ _ _ _ drained _ sending => ⟨drained, broken_setDispatch pc there whole sending⟩)
    (fun _ task found owner started => ⟨task, found, owner, rfl, started⟩)

theorem Doomed.startedTask (doomed : m.Doomed w) (t : TaskId) :
    (m.startedTask t).Doomed w := by
  refine doomed.frame (fun _ _ _ _ drained _ sending => ⟨drained, sending⟩) ?_
  intro u task found owner started
  rw [get?_startedTask]
  split
  · exact ⟨{ task with status := .running }, by rw [found]; rfl, owner, rfl, by simp⟩
  · exact ⟨task, found, owner, rfl, started⟩

theorem Doomed.condemnedWorker (doomed : m.Doomed v) (other : v ≠ w) :
    (m.condemnedWorker w).Doomed v := by
  refine doomed.frame (fun _ _ _ _ drained _ sending => ⟨drained, sending⟩) ?_
  intro t task found owner started
  have kept : task.requeued w = task := Scheduler.requeued_of_other owner other
  exact ⟨task, by rw [get?_condemnedWorker, found, Option.map_some, kept], owner, rfl, started⟩

theorem Doomed.finishedTask (doomed : m.Doomed v) (t : TaskId) (w : WorkerId) (response : Message) :
    (m.finishedTask t w response).Doomed v := by
  refine doomed.frame (fun _ _ _ _ drained _ sending => ⟨drained, sending⟩) ?_
  intro u task found owner started
  rw [get?_finishedTask]
  split
  · refine ⟨{ task with status := if response.isSuccess then .completed else .failed }, ?_, owner, rfl, ?_⟩
    · rw [found]
      rfl
    · cases response.isSuccess <;> simp
  · exact ⟨task, found, owner, rfl, started⟩

/-! ### The calls that come back from a worker -/

theorem live_setStatus {status : WorkerStatus} (live : (ws.setStatus w status).live v = true) :
    (v ≠ w ∧ ws.live v = true) ∨ (v = w ∧ status.replaceable = false) := by
  simp only [WorkerManager.live, WorkerManager.statusOf_setStatus] at live
  split at live
  · rename_i same
    cases known : ws.statusOf v with
    | none => simp [known] at live
    | some old => exact .inr ⟨same, by simpa [known] using live⟩
  · rename_i other
    exact .inl ⟨other, live⟩

theorem live_setStatus_of_known {worker : Worker} {status : WorkerStatus} (known : ws.get? w = some worker)
    (serves : status.replaceable = false) (live : ws.live v = true) :
    (ws.setStatus w status).live v = true := by
  simp only [WorkerManager.live, WorkerManager.statusOf_setStatus] at live ⊢
  split
  · rename_i same
    simp [same, WorkerManager.statusOf, known, serves]
  · exact live

/-- A call that comes back without an answer puts no worker in service, and a
worker it leaves in service is doomed by another call. -/
theorem Unreached.doomed (outcome : Unreached m d t w attempt response m') (there : m.dispatches[d]? = some ⟨t, pc⟩)
    (captured : pc.broken = false ∨ ∃ l drained reply, pc = .sending l w attempt drained reply)
    (live : m'.workers.live v = true) :
    m.workers.live v = true ∧ (m.Doomed v → m'.Doomed v) := by
  -- a worker doomed by this very call has its attempt current
  have spared : ∀ pc', m.Doomed v → (v = w → m.isCurrentAttempt t w attempt = false) →
      (m.setDispatch d pc').Doomed v := by
    intro pc' doomed late
    obtain ⟨e, u, l, number, drained, reason, task, sending, found, owner, same, started⟩ := doomed
    by_cases mine : e = d
    · subst mine
      rw [there, Option.some.injEq, Dispatch.mk.injEq] at sending
      obtain ⟨rfl, rfl⟩ := sending
      rcases captured with whole | ⟨_, _, _, caught⟩
      · cases whole
      · cases caught
        have current : m.isCurrentAttempt t w attempt = true :=
          isCurrentAttempt_iff.mpr ⟨task, found, owner, same⟩
        rw [late rfl] at current
        cases current
    · refine ⟨e, u, l, number, drained, reason, task, ?_, found, owner, same, started⟩
      rw [dispatches_setDispatch, if_neg mine, sending]
  cases outcome with
  | late old => exact ⟨live, fun doomed => spared _ doomed fun _ => old⟩
  | unknown _ unknown =>
    refine ⟨live, fun doomed => spared _ doomed ?_⟩
    rintro rfl
    have present : m.workers.live v = true := live
    simp only [Dict.contains, Option.isSome_eq_false_iff, Option.isNone_iff_eq_none] at unknown
    simp [WorkerManager.live, WorkerManager.statusOf, unknown] at present
  | condemned _ _ =>
    simp only [Master.setDispatch, workers, recordIfTerminal_scheduler, Master.condemnedWorker,
      Scheduler.condemned_workers] at live
    rcases live_setStatus live with ⟨other, before⟩ | ⟨_, impossible⟩
    · refine ⟨before, fun doomed => ?_⟩
      have kept := (spared (.returned response) doomed fun same => absurd same other).condemnedWorker other
      exact kept.congr (by simp [Master.setDispatch, Master.condemnedWorker])
        (by simp [Master.setDispatch, Master.condemnedWorker])
    · cases impossible

theorem Doomed.finishDispatch (doomed : m.Doomed w) (t : TaskId) (response : Message)
    (there : m.dispatches[d]? = some dispatch) (whole : dispatch.pc.broken = false) :
    (m.finishDispatch d t response).Doomed w := by
  have recorded : (m.recordIfTerminal t response).Doomed w := doomed.congr (by simp) (by simp [tasks])
  exact recorded.setDispatch _ (by rw [recordIfTerminal_dispatches]; exact there) whole

theorem Doomed.closeIfDraining (doomed : m.Doomed w) (t : TaskId) (v : WorkerId) (attempt : Nat) (response : Message)
    (there : m.dispatches[d]? = some dispatch) (whole : dispatch.pc.broken = false) :
    (m.closeIfDraining d t v attempt response).Doomed w := by
  unfold Master.closeIfDraining
  split
  · split
    · exact (doomed.congr rfl rfl : (m.loseLink _).Doomed w).setDispatch _ there whole
    · exact doomed.finishDispatch t response there whole
  · exact doomed.finishDispatch t response there whole

/-- A call that comes back with an answer releases a worker that was in service. -/
theorem Settled.doomed (outcome : Settled m d t w attempt response m') (exclusive : m.scheduler.Exclusive)
    (sound : Lease.Sound (leaseRules t) (m.working t d w attempt)) (there : m.dispatches[d]? = some ⟨t, pc⟩)
    (whole : pc.broken = false) (live : m'.workers.live v = true) :
    m.workers.live v = true ∧ (m.Doomed v → m'.Doomed v) := by
  cases outcome with
  | late _ => exact ⟨live, fun doomed => doomed.setDispatch _ there whole⟩
  | malformed => exact ⟨live, fun doomed => doomed.setDispatch _ there whole⟩
  | unknown status current unknown _ =>
    have known := exclusive.known t w (holds_of_isCurrentAttempt sound current)
    rw [unknown] at known
    cases known
  | settled current known =>
    have holds := holds_of_isCurrentAttempt sound current
    refine ⟨?_, fun doomed => ?_⟩
    · rw [workers, closeIfDraining_scheduler] at live
      simp only [WorkerManager.live, Master.finishedTask, Scheduler.statusOf_finished] at live
      split at live
      · rename_i released
        obtain ⟨rfl, _⟩ := released
        -- a FAILED or STOPPED worker holds no task
        obtain ⟨worker, found⟩ := Option.isSome_iff_exists.mp known
        have held : worker.status.replaceable = false := by
          by_contra replaceable
          refine exclusive.free t v worker.status (by simp [WorkerManager.statusOf, found]) ?_ holds
          cases h : worker.status <;> simp_all [WorkerStatus.replaceable, WorkerStatus.free]
        simp [WorkerManager.live, WorkerManager.statusOf, found, held]
      · exact live
    · exact (doomed.finishedTask t w response).closeIfDraining t w attempt response there whole

/-! ### The condition -/

/-- `d` is the call working on the task in flight on `w`, and no answer has come. -/
def awaits (m : Master) (d : DispatchId) (w : WorkerId) : Bool :=
  match m.dispatches[d]? with
  | some ⟨t, .sending _ v attempt _ reply⟩ =>
    v = w && m.isCurrentAttempt t w attempt && !reply.isMessage
  | _ => false

/-- A `finally` block that takes the link of `w` out of the table takes `w` out of
service, at once or through a send that it fails. -/
def departs (m : Master) (link : Link) (w : WorkerId) : Bool :=
  !m.workers.live w ||
  (m.workers.statusOf w = some .draining && !link.hasPending &&
    !m.tasks.entries.any (fun e => e.2.assignedWorkerId = some w && e.2.status.inFlight)) ||
  link.pending.values.any (fun d => m.awaits d w)

/-- A call is cancelled after its send failed, before it condemned its worker. -/
def cancelsBroken (m : Master) : Action → Option WorkerId
  | .abortDispatch d =>
    match m.dispatches[d]? with
    | some ⟨_, .sending _ w _ _ (.failed _)⟩ => some w
    | _ => none
  | _ => none

/-- `connections.clear()` runs only when no worker is live. -/
def clearsNone (m : Master) : Action → Bool
  | .stopClears => m.workers.entries.all (fun e => e.2.status.replaceable)
  | _ => true

/-- The condition under which live workers keep a link: handlers depart as above
or end mid-REGISTER only when the worker has another link, calls whose send failed
are not cancelled while the worker has none, and the table is cleared only when no
worker is live. -/
def keepsSeats (m : Master) (a : Action) : Prop :=
  (∀ retired ∈ m.retiring a, m.departs retired.1 retired.2 = true) ∧
  (∀ ended ∈ m.ending a, ∀ w ∈ ended.2.pc.registering, m.connections.contains w = true) ∧
  (∀ w ∈ m.cancelsBroken a, m.connections.contains w = true) ∧ m.clearsNone a = true

instance (m : Master) (a : Action) : Decidable (m.keepsSeats a) :=
  inferInstanceAs (Decidable (_ ∧ _ ∧ _ ∧ _))

theorem stopsOnlyFree_of_keepsSeats (good : m.keepsSeats a) : m.stopsOnlyFree a := by
  by_contra busy
  simp only [stopsOnlyFree, Bool.not_eq_false, stopsBusyWorker] at busy
  split at busy
  · rename_i link w retiring
    simp only [Bool.and_eq_true, decide_eq_true_eq, Bool.not_eq_true'] at busy
    obtain ⟨⟨draining, idle⟩, held⟩ := busy
    have leaves := good.1 (link, w) retiring
    have live : m.workers.live w = true := by simp [WorkerManager.live, draining, WorkerStatus.replaceable]
    have none : link.pending.values = [] := by
      simpa [Link.hasPending, Dict.values] using idle
    simp [departs, live, draining, idle, held, none] at leaves
  · cases busy

/-! ### Every step keeps live workers seated -/

theorem Seated.of_frame (seated : m.Seated) (same : SameSeats m m')
    (kept : ∀ w, m'.workers.live w = true → m.workers.live w = true ∧ (m.Doomed w → m'.Doomed w)) :
    m'.Seated := by
  intro w live
  obtain ⟨before, doom⟩ := kept w live
  rcases seated w before with reached | doomed
  · left
    rw [Reached, same.seats]
    exact reached
  · exact .inr (doom doomed)

/-- Steps that leave the scheduler alone and touch one unbroken call at most. -/
theorem Seated.setDispatch (seated : m.Seated) (pc : DispatchPc) (there : m.dispatches[d]? = some dispatch)
    (whole : dispatch.pc.broken = false) :
    (m.setDispatch d pc).Seated :=
  seated.of_frame (sameSeats_setDispatch m d pc) fun _ live =>
    ⟨live, fun doomed => doomed.setDispatch pc there whole⟩

theorem Seated.startedTask (seated : m.Seated) (t : TaskId) : (m.startedTask t).Seated :=
  seated.of_frame (sameSeats_startedTask m t) fun _ live => ⟨live, fun doomed => doomed.startedTask t⟩

theorem Seated.popPending (seated : m.Seated) (l : LinkId) (t : TaskId) (attempt : Nat) :
    (m.popPending l t attempt).Seated :=
  seated.of_frame (sameSeats_popPending m l t attempt) fun _ live => ⟨live, fun doomed => doomed.congr rfl rfl⟩

theorem Seated.unreached (seated : m.Seated) (outcome : Unreached m d t w attempt response m')
    (there : m.dispatches[d]? = some ⟨t, pc⟩)
    (captured : pc.broken = false ∨ ∃ l drained reply, pc = .sending l w attempt drained reply) : m'.Seated :=
  seated.of_frame outcome.sameSeats fun _ live => outcome.doomed there captured live

theorem Seated.submit (seated : m.Seated) (taskType : String) (payload : List (Key × Val))
    (absent : m.tasks.get? t = none) : (m.submittedTask t taskType payload).Seated := by
  refine seated.of_frame ⟨rfl, fun _ => rfl, fun _ => rfl, rfl⟩ fun w live => ⟨live, fun doomed => ?_⟩
  refine doomed.frame (fun _ _ _ _ drained _ sending => ⟨drained, sending⟩) ?_
  intro u task found owner started
  refine ⟨task, ?_, owner, rfl, started⟩
  rw [get?_submittedTask, if_neg, found]
  rintro rfl
  rw [absent] at found
  cases found

theorem Seated.stale (seated : m.Seated) (now : Time) : (m.condemnedStale now).Seated := by
  refine seated.of_frame (sameSeats_condemnedStale m now) fun w live => ?_
  rw [workers, condemnedStale, Scheduler.condemnStale_workers, WorkerManager.live, Scheduler.statusOf_stale] at live
  split at live
  · cases live
  · rename_i fresh
    refine ⟨live, fun doomed => doomed.frame (fun _ _ _ _ drained _ sending => ⟨drained, sending⟩) ?_⟩
    intro t task found owner started
    refine ⟨task, ?_, owner, rfl, started⟩
    rw [tasks, condemnedStale, Scheduler.get?_condemnStale, found, Option.map_some, if_neg]
    rintro ⟨⟨v, old, mine⟩, _⟩
    rw [owner] at mine
    cases mine
    exact fresh old

theorem Seated.handle (seated : m.Seated) {message : Message} {now : Time} (there : m.links[l]? = some link)
    (reading : link.pc = .reading) (handled : Handled m.workers message now response ws) :
    (m.answered l message response ws now).Seated := by
  have steady : SameSeats m (m.answered l message response ws now) →
      (∀ w, ws.live w = true → m.workers.live w = true) → (m.answered l message response ws now).Seated :=
    fun same kept => seated.of_frame same fun w live => ⟨kept w live, fun doomed => doomed.congr rfl rfl⟩
  cases handled with
  | @registered w _ granted ack =>
    intro v live
    have moved := seats_registered there granted ack
    by_cases mine : v = w
    · subst mine
      refine .inl (.inr ⟨l, ?_⟩)
      rw [moved]
      exact Function.update_self ..
    · obtain ⟨worker, _, _, rfl, _⟩ := grantedRegistration_some granted
      have before : m.workers.live v = true := by
        simpa [WorkerManager.live, WorkerManager.statusOf, answered, setHandler, modifyLink, workers,
          Dict.get?_insert, mine] using live
      rcases seated v before with (seat | ⟨k, claims⟩) | doomed
      · refine .inl (.inl ?_)
        rw [moved]
        exact seat
      · refine .inl (.inr ⟨k, ?_⟩)
        have apart : k ≠ l := by
          rintro rfl
          obtain ⟨other, found, registering⟩ := claim_eq_some.mp claims
          rw [there] at found
          cases found
          rw [reading] at registering
          cases registering
        rw [moved]
        exact (Function.update_of_ne apart ..).trans claims
      · exact .inr (doomed.congr rfl rfl)
  | unchanged refused other =>
    exact steady (sameSeats_unregistered there reading refused other fun _ => rfl) fun _ live => live
  | @beat w type named known other =>
    rcases seats_handled there reading (.beat type named known other) with same | ⟨v, granted, _⟩
    · refine steady same fun v live => ?_
      rwa [WorkerManager.live, WorkerManager.statusOf_beat] at live
    · rw [grantedRegistration_of_ne (by simp [type])] at granted
      cases granted
  | @drained w worker type named known running other =>
    rcases seats_handled there reading (.drained type named known running other) with same | ⟨v, granted, _⟩
    · refine steady same fun v live => ?_
      rcases live_setStatus live with ⟨_, before⟩ | ⟨rfl, _⟩
      · exact before
      · have inService : worker.status.replaceable = false := by
          cases h : worker.status <;> simp_all [liveStatus, WorkerStatus.replaceable]
        simp [WorkerManager.live, WorkerManager.statusOf, known, inService]
    · rw [grantedRegistration_of_ne (by simp [type])] at granted
      cases granted

theorem Seated.install (seated : m.Seated) (recorded : Succession.Recorded m.seats) (there : m.links[l]? = some link)
    (claims : link.pc.registering = some w) : (m.install l w).Seated := by
  have claimed : m.seats.claim l = some w := claim_eq_some.mpr ⟨link, there, claims⟩
  have moved := seats_install there (generation_of_claim recorded claimed)
  intro v live
  rw [workers, install_scheduler] at live
  have installed : v = w → (m.install l w).Reached v := by
    rintro rfl
    left
    rw [moved]
    simp [Succession.State.installed]
  rcases seated v live with (seat | ⟨k, claiming⟩) | doomed
  · by_cases mine : v = w
    · exact .inl (installed mine)
    · refine .inl (.inl ?_)
      rw [moved]
      simpa [Succession.State.installed, Function.update_of_ne mine] using seat
  · by_cases own : k = l
    · subst own
      exact .inl (installed (Option.some.inj (claiming.symm.trans claimed)))
    · refine .inl (.inr ⟨k, ?_⟩)
      rw [moved]
      exact (Function.update_of_ne own ..).trans claiming
  · exact .inr (doomed.congr (install_dispatches m l w) (by rw [tasks, install_scheduler]))

theorem Doomed.cleanup (doomed : m.Doomed w) (l : LinkId) (link : Link) :
    (m.cleanup l link).Doomed w := by
  refine doomed.frame (fun d t k attempt drained reason sending => ⟨drained, ?_⟩) fun t task found owner started =>
    ⟨task, by rw [cleanup_tasks]; exact found, owner, rfl, started⟩
  rw [cleanup_dispatches, dispatches_failPending, sending, Option.map_some]
  split <;> rfl

/-- The `finally` block dooms a worker whose task it leaves without an answer. -/
theorem doomed_of_awaits (fenced : m.Fenced) (l : LinkId) (pending : d ∈ link.pending.values)
    (waits : m.awaits d w = true) :
    (m.cleanup l link).Doomed w := by
  unfold awaits at waits
  split at waits
  · rename_i t k v attempt drained reply sending
    simp only [Bool.and_eq_true, decide_eq_true_eq, Bool.not_eq_true'] at waits
    obtain ⟨⟨rfl, current⟩, unanswered⟩ := waits
    have sound := fenced.working sending
    obtain ⟨task, found, owner, same, running⟩ := running_of_isCurrentAttempt sound current
    have fails : ∃ reason, Dispatch.failReply "Worker connection closed" ⟨t, .sending k v attempt drained reply⟩ =
        ⟨t, .sending k v attempt drained (.failed reason)⟩ := by
      cases reply with
      | waiting => exact ⟨_, rfl⟩
      | message _ => cases unanswered
      | failed reason => exact ⟨reason, rfl⟩
    obtain ⟨reason, failed⟩ := fails
    refine ⟨d, t, k, attempt, drained, reason, task, ?_, by rw [cleanup_tasks]; exact found, owner, same, ?_⟩
    · rw [cleanup_dispatches, dispatches_failPending, sending, Option.map_some, if_pos pending, failed]
    · rw [running]
      decide
  · cases waits

/-- The link of `w` leaves the table: `w` leaves service or is doomed. -/
theorem departed (fenced : m.Fenced) (leaves : m.departs link w = true) (mine : link.workerId = some w)
    (current : m.connections.get? w = some l) (live : (m.cleanup l link).workers.live w = true)
    (before : m.workers.live w = true) :
    (m.cleanup l link).Doomed w := by
  simp only [departs, before, Bool.not_true, Bool.false_or, Bool.or_eq_true, Bool.and_eq_true,
    decide_eq_true_eq, Bool.not_eq_true'] at leaves
  rcases leaves with ⟨⟨draining, idle⟩, _⟩ | waiting
  · have stopped : (m.cleanup l link).scheduler = m.scheduler.setWorkerStatus w .stopped := by
      simp only [Master.cleanup, mine, current, if_true, failPending, modifyLink, retire, draining, idle, and_self]
    rw [workers, stopped] at live
    rcases live_setStatus live with ⟨other, _⟩ | ⟨_, impossible⟩
    · exact absurd rfl other
    · cases impossible
  · obtain ⟨d, pending, waits⟩ := List.any_eq_true.mp waiting
    exact doomed_of_awaits fenced l pending waits

theorem Seated.cleanup (seated : m.Seated) (fenced : m.Fenced) (good : m.keepsSeats a)
    (ending : m.ending a = some (l, link)) (there : m.links[l]? = some link) :
    (m.cleanup l link).Seated := by
  intro w live
  have before : m.workers.live w = true := by
    rcases cleanup_scheduler m l link with same | ⟨v, _, _, _, _, stopped⟩
    · rwa [workers, same] at live
    · rw [workers, stopped] at live
      rcases live_setStatus live with ⟨_, before⟩ | ⟨_, impossible⟩
      · exact before
      · cases impossible
  -- a link in the table stays there or departs in order
  have seat : m.connections.contains w = true → (m.cleanup l link).Reached w ∨ (m.cleanup l link).Doomed w := by
    intro known
    by_cases mine : link.workerId = some w ∧ m.connections.get? w = some l
    · have retires : m.retiring a = some (link, w) := by simp [retiring, ending, mine.1, mine.2]
      have leaves := good.1 (link, w) retires
      exact .inr (departed fenced leaves mine.1 mine.2 live before)
    · refine .inl (.inl ?_)
      simp only [seats, cleanup_connections, if_neg mine]
      exact known
  rcases seated w before with (known | ⟨k, claims⟩) | doomed
  · exact seat known
  · by_cases own : k = l
    · subst own
      obtain ⟨other, found, registering⟩ := claim_eq_some.mp claims
      obtain rfl : link = other := Option.some.inj (there.symm.trans found)
      exact seat (good.2.1 _ ending w registering)
    · refine .inl (.inr ⟨k, ?_⟩)
      rw [seats_cleanup there]
      exact (Function.update_of_ne own ..).trans claims
  · exact .inr (doomed.cleanup l link)

theorem Seated.abort (seated : m.Seated) {drained : Bool} {reply : Reply}
    (sending : m.dispatches[d]? = some ⟨t, .sending l w attempt drained reply⟩)
    (good : m.keepsSeats (.abortDispatch d)) : (m.setDispatch d .raised).Seated := by
  cases reply with
  | waiting => exact seated.setDispatch .raised sending rfl
  | message _ => exact seated.setDispatch .raised sending rfl
  | failed reason =>
    have connected : m.connections.contains w = true := good.2.2.1 w (by simp [cancelsBroken, sending])
    intro v live
    rcases seated v live with reached | doomed
    · left
      rw [Reached, (sameSeats_setDispatch m d .raised).seats]
      exact reached
    · obtain ⟨e, u, k, number, drained', reason', task, other, found, owner, same, started⟩ := doomed
      by_cases mine : e = d
      · subst mine
        rw [sending] at other
        cases other
        exact .inl (.inl connected)
      · refine .inr ⟨e, u, k, number, drained', reason', task, ?_, found, owner, same, started⟩
        rw [dispatches_setDispatch, if_neg mine, other]

theorem Seated.clear (good : m.keepsSeats .stopClears) : Seated { m with connections := ∅ } := by
  intro w live
  have none := good.2.2.2
  simp only [clearsNone, List.all_eq_true] at none
  simp only [WorkerManager.live, WorkerManager.statusOf] at live
  cases found : m.workers.get? w with
  | none => simp [found] at live
  | some worker =>
    have replaceable := none (w, worker) (Dict.mem_entries.mpr found)
    simp [found, replaceable] at live

theorem Seated.micro {mid : Master} (seated : m.Seated) (fenced : m.Fenced) (exclusive : m.scheduler.Exclusive)
    (recorded : Succession.Recorded m.seats) (good : m.keepsSeats a) (move : Micro m a mid) : mid.Seated := by
  have idle : SameSeats m mid → mid.workers = m.workers → mid.dispatches = m.dispatches →
      mid.tasks = m.tasks → mid.Seated := fun same workers dispatches tasks =>
    seated.of_frame same fun w live => ⟨by rwa [workers] at live, fun doomed => doomed.congr dispatches tasks⟩
  cases move with
  | skip _ => exact seated
  | submit absent => exact seated.submit _ _ absent
  | accept => exact idle (sameSeats_accept m) rfl rfl rfl
  | lose _ => exact idle (sameSeats_loseLink m _) rfl rfl rfl
  | cleanup named there turn _ => exact seated.cleanup fenced good (ending_of_cleanup named there turn) there
  | resolve _ _ sending => exact seated.setDispatch _ sending rfl
  | handle there reading _ handled => exact seated.handle there reading (handleRequest_handled handled)
  | install there claims => exact seated.install recorded there claims
  | handler _ there none quiet _ =>
    exact idle (sameSeats_setHandler there ((quiet_registering quiet).trans none.symm)) rfl rfl rfl
  | startRaises spawned _ => exact seated.setDispatch _ spawned rfl
  | @orphan d t _ _ spawned _ _ _ =>
    exact (seated.startedTask t).setDispatch (m := m.startedTask t) _ spawned rfl
  | @unreached d t _ _ _ spawned _ _ _ _ =>
    exact (seated.startedTask t).unreached (unreachable_outcome _ _ _ _ _ _) spawned (.inl rfl)
  | @unencodable d t task _ l _ _ spawned _ _ _ _ _ =>
    exact ((seated.startedTask t).popPending l t task.attempt).unreached (unreachable_outcome _ _ _ _ _ _) spawned
      (.inl rfl)
  | @overflow d t task _ l _ spawned _ _ _ _ _ =>
    exact ((seated.startedTask t).popPending l t task.attempt).setDispatch
      (m := (m.startedTask t).popPending l t task.attempt) _ spawned rfl
  | @write d t task w l _ spawned _ _ _ _ =>
    refine (seated.startedTask t).of_frame (sameSeats_writeTask _ _ _ _ _ _) fun v live => ⟨live, fun doomed => ?_⟩
    exact (doomed.congr rfl rfl : Doomed { m.startedTask t with
      history := m.history ++ [Event.sent t task.attempt l] } v).setDispatch _ spawned rfl
  | @drained d t l w attempt reply sending =>
    refine seated.of_frame (sameSeats_setDispatch m d _) fun v live => ⟨live, fun doomed => ?_⟩
    refine doomed.frame ?_ fun _ task found owner started => ⟨task, found, owner, rfl, started⟩
    intro e u k number before reason broken
    by_cases mine : e = d
    · subst mine
      rw [sending] at broken
      cases broken
      exact ⟨true, by rw [dispatches_setDispatch, if_pos rfl, sending]; rfl⟩
    · exact ⟨before, by rw [dispatches_setDispatch, if_neg mine, broken]⟩
  | @sendLost d t l _ w attempt reply _ sending _ _ =>
    exact (seated.popPending l t attempt).unreached (unreachable_outcome _ _ _ _ _ _) sending
      (.inr ⟨l, false, reply, rfl⟩)
  | @replyLost d t l w attempt reason sending =>
    exact (seated.popPending l t attempt).unreached (unreachable_outcome _ _ _ _ _ _) sending
      (.inr ⟨l, true, .failed reason, rfl⟩)
  | @replied d t l w attempt response sending =>
    have sound := fenced.working sending
    have outcome := handleReply_outcome (m.popPending l t attempt) d t w attempt response
    exact (seated.popPending l t attempt).of_frame outcome.sameSeats fun v live =>
      outcome.doomed exclusive sound sending rfl live
  | @abort d t l w attempt _ _ sending =>
    have aborted := seated.abort sending good
    exact aborted.popPending l t attempt
  | @finish d t _ _ response closing =>
    exact seated.of_frame (sameSeats_finishDispatch m d t response) fun v live =>
      ⟨by rwa [workers, finishDispatch_scheduler] at live,
        fun doomed => doomed.finishDispatch t response closing rfl⟩
  | abandon closing => exact seated.setDispatch _ closing rfl
  | stale _ => exact seated.stale _
  | clear => exact .clear good

theorem Seated.loop (seated : m.Seated) (loop : Loop m m') : m'.Seated := by
  refine seated.of_frame loop.sameSeats fun v live => ?_
  cases loop with
  | @grant t w task worker found pending known idle =>
    constructor
    · rw [workers, Scheduler.grant_workers] at live
      rcases live_setStatus live with ⟨_, before⟩ | ⟨rfl, _⟩
      · exact before
      · simp [WorkerManager.live, WorkerManager.statusOf, known, idle, WorkerStatus.replaceable]
    · intro doomed
      refine doomed.frame (fun _ _ _ _ drained _ sending => ⟨drained, sending⟩) ?_
      intro u other there owner started
      refine ⟨other, ?_, owner, rfl, started⟩
      rw [tasks, Scheduler.get?_grant, if_neg, there]
      rintro rfl
      rw [found] at there
      cases there
      exact started pending
  | spawn batch =>
    refine ⟨live, fun doomed => doomed.frame (fun _ _ _ _ drained _ sending => ⟨drained, spawn_keeps sending⟩) ?_⟩
    exact fun _ task found owner started => ⟨task, found, owner, rfl, started⟩
  | loops _ _ _ => exact ⟨live, fun doomed => doomed.congr rfl rfl⟩

theorem seated_of_run (run : Steps step keepsSeats initial m) : m.Seated := by
  refine run.invariant_with (J := fun n => n.Fenced ∧ n.scheduler.Exclusive ∧ Succession.Recorded n.seats)
    (fun n before => ⟨fenced_of_run before, exclusive_of_run (fun _ _ => stopsOnlyFree_of_keepsSeats) before,
      recorded_of_run before⟩) (fun w live => by cases live) ?_
  rintro n a n' ⟨fenced, exclusive, recorded⟩ seated good taken
  exact step_preserves taken (fun mid move => seated.micro fenced exclusive recorded good move)
    (fun s s' loop kept => kept.loop loop)

/-! ### Live status means live connection -/

/-- A worker that holds its own task in flight is not IDLE. -/
theorem not_doomed_of_idle (fenced : m.Fenced) (exclusive : m.scheduler.Exclusive)
    (idle : m.workers.statusOf w = some .idle) : ¬ m.Doomed w := by
  rintro ⟨d, t, l, attempt, drained, reason, task, sending, found, owner, same, _⟩
  have sound := fenced.working sending
  have current : m.isCurrentAttempt t w attempt = true := isCurrentAttempt_iff.mpr ⟨task, found, owner, same⟩
  exact exclusive.free t w .idle idle rfl (holds_of_isCurrentAttempt sound current)

theorem not_doomed_of_quiet (quiet : ∀ dispatch ∈ m.dispatches, dispatch.pc.worker? ≠ some w) : ¬ m.Doomed w := by
  rintro ⟨d, t, l, attempt, drained, reason, task, sending, _⟩
  exact quiet _ (List.mem_of_getElem? sending) rfl

theorem connected_of_reached (settled : ∀ link ∈ m.links, link.pc.registering ≠ some w) (reached : m.Reached w) :
    m.connections.contains w = true := by
  rcases reached with known | ⟨l, claims⟩
  · exact known
  · obtain ⟨link, there, registering⟩ := claim_eq_some.mp claims
    exact absurd registering (settled link (List.mem_of_getElem? there))

theorem registerWorker_of_replaceable {w host : String} {port : Int} (now : Time) (named : w ≠ "")
    (hosted : host ≠ "") (bound : 0 < port ∧ port < 65536) (free : ws.live w = false) :
    ∃ ws', ws.registerWorker (.str w) (.str host) (.int port) now = .ok (w, ws') := by
  simp only [WorkerManager.registerWorker, nonEmptyStr, tcpPort, named, hosted, bound, if_false, and_self, if_true]
  cases found : ws.get? w with
  | none => exact ⟨_, rfl⟩
  | some worker =>
    have replaceable : worker.status.replaceable = true := by
      simpa [WorkerManager.live, WorkerManager.statusOf, found] using free
    exact ⟨_, if_pos replaceable⟩

/-- The connection of `v` ends while its task is unanswered, so `v` is condemned;
`w` stays connected. -/
def departingRun : List Action :=
  [.submitTask "t" "ADD" [], .accept, .receive 0 (registerRequest "v") 0, .replySent 0, .accept,
    .receive 1 (registerRequest "w") 0, .replySent 1, .startDispatcher, .dispatcherTick, .startDispatch 0 1000,
    .sendDrained 0, .handlerRaises 0, .resumeDispatch 0]

/-- An idle worker's connection ends and its handler is through. -/
def forsakenRun : List Action := registeredRun ++ [.handlerRaises 0, .handlerClosed 0]

end Master
end DistributedCompute
