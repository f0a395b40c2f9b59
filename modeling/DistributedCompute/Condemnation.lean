import DistributedCompute.Footprint
import DistributedCompute.Json
import DistributedCompute.LiveWorkers
import DistributedCompute.Separators

/-! Why a worker becomes FAILED: a stale heartbeat, or a call that could not reach
it. A call in flight is tied to the link it was written on: as long as its attempt
is current that link is the one in the table, or none is, and nobody else
registers the worker. So a call that fails for its link speaks of the worker's own
connection. A request that cannot be encoded takes the same branch without any
link having failed. -/
namespace DistributedCompute
open Py Relation Transition

/-- A request_id names its task and its attempt. -/
theorem attemptRequestId_injective {t u : TaskId} {attempt number : Nat}
    (same : attemptRequestId t attempt = attemptRequestId u number) : t = u ∧ attempt = number := by
  have texts := congrArg String.toList same
  simp only [attemptRequestId, toString, String.toList_append, Nat.toList_repr,
    List.append_assoc] at texts
  have parts : t.toList ++ ':' :: Nat.toDigits 10 attempt = u.toList ++ ':' :: Nat.toDigits 10 number := by
    simpa using texts
  have noColon (n : Nat) : ':' ∉ Nat.toDigits 10 n := Separators.notMem_toDigits (by decide) n
  obtain ⟨names, digits⟩ := Separators.separator_unique parts (noColon _) (noColon _)
  exact ⟨String.toList_injective names, Separators.toDigits_injective digits⟩

namespace Master

/-- `d` is a call for attempt `attempt` of `t`, written on link `l` for worker `w`,
and the attempt is still the task's. -/
def Current (m : Master) (d : DispatchId) (t : TaskId) (l : LinkId) (w : WorkerId) (attempt : Nat) : Prop :=
  (∃ drained reply, m.dispatches[d]? = some ⟨t, .sending l w attempt drained reply⟩) ∧
    m.isCurrentAttempt t w attempt = true

structure Tie (m : Master) (d : DispatchId) (t : TaskId) (l : LinkId) (w : WorkerId) (attempt : Nat) : Prop where
  seat : m.connections.get? w = some l ∨ m.connections.get? w = none
  claims : ∀ k, m.seats.claim k = some w → k = l
  pending : ∃ link, m.links[l]? = some link ∧ link.pending.get? (attemptRequestId t attempt) = some d
  live : m.workers.live w = true

def Tied (m : Master) : Prop := ∀ d t l w attempt, m.Current d t l w attempt → m.Tie d t l w attempt

/-- No call becomes current, and the ties of those that stay current hold. -/
def Loosens (m m' : Master) : Prop :=
  ∀ d t l w attempt, m'.Current d t l w attempt →
    m.Current d t l w attempt ∧ (m.Tie d t l w attempt → m'.Tie d t l w attempt)

variable {m m' m'' mid : Master} {d e : DispatchId} {t u : TaskId} {l : LinkId} {attempt : Nat} {w v : WorkerId}
  {drained : Bool} {reply : Reply} {response : Message} {link : Link} {task : Task} {a : Action}

theorem Loosens.trans (first : Loosens m m') (second : Loosens m' m'') : Loosens m m'' := by
  intro d t l w attempt current
  obtain ⟨before, keeps⟩ := second d t l w attempt current
  obtain ⟨earlier, kept⟩ := first d t l w attempt before
  exact ⟨earlier, fun tie => keeps (kept tie)⟩

theorem Tied.loosen (tied : m.Tied) (loosens : Loosens m m') : m'.Tied := by
  intro d t l w attempt current
  obtain ⟨before, keeps⟩ := loosens d t l w attempt current
  exact keeps (tied d t l w attempt before)

/-- Nothing changes about the futures a link holds. -/
def SamePending (m m' : Master) : Prop :=
  ∀ (l : LinkId) link, m.links[l]? = some link → ∃ link', m'.links[l]? = some link' ∧ link'.pending = link.pending

theorem SamePending.trans (first : SamePending m m') (second : SamePending m' m'') :
    SamePending m m'' := by
  intro l link there
  obtain ⟨mid, found, same⟩ := first l link there
  obtain ⟨last, found', same'⟩ := second l mid found
  exact ⟨last, found', same'.trans same⟩

/-- Link `l` holds the future of call `d`. -/
def Held (m : Master) (d : DispatchId) (t : TaskId) (l : LinkId) (attempt : Nat) : Prop :=
  ∃ link, m.links[l]? = some link ∧ link.pending.get? (attemptRequestId t attempt) = some d

theorem SamePending.held (same : SamePending m m') (held : m.Held d t l attempt) : m'.Held d t l attempt := by
  obtain ⟨link, there, future⟩ := held
  obtain ⟨link', found, kept⟩ := same l link there
  exact ⟨link', found, by rw [kept]; exact future⟩

/-- The futures of the calls that stay current are still held. -/
def Retains (m m' : Master) : Prop :=
  ∀ d t l w attempt, m'.Current d t l w attempt → m.Held d t l attempt → m'.Held d t l attempt

theorem SamePending.retains (same : SamePending m m') : Retains m m' :=
  fun _ _ _ _ _ _ held => same.held held

theorem samePending_of_links (links : m'.links = m.links) : SamePending m m' := by
  intro l link there
  rw [links]
  exact ⟨link, there, rfl⟩

theorem samePending_modifyLink (m : Master) (l : LinkId) {f : Link → Link}
    (same : ∀ link, (f link).pending = link.pending) : SamePending m (m.modifyLink l f) := by
  intro k link there
  rw [links_modifyLink]
  split
  · exact ⟨f link, by rw [there]; rfl, same link⟩
  · exact ⟨link, there, rfl⟩

theorem samePending_loseLink (m : Master) (l : LinkId) : SamePending m (m.loseLink l) :=
  samePending_modifyLink m l fun _ => rfl

theorem samePending_setHandler (m : Master) (l : LinkId) (pc : HandlerPc) : SamePending m (m.setHandler l pc) :=
  samePending_modifyLink m l fun _ => rfl

theorem loosens_of_frame (same : SameSeats m m') (pending : SamePending m m')
    (calls : ∀ d t l w attempt, m'.Current d t l w attempt →
      m.Current d t l w attempt ∧ (m.workers.live w = true → m'.workers.live w = true)) : Loosens m m' := by
  intro d t l w attempt current
  obtain ⟨before, inService⟩ := calls d t l w attempt current
  refine ⟨before, fun tie => ⟨?_, ?_, ?_, inService tie.live⟩⟩
  · rw [same.connections]
    exact tie.seat
  · rw [same.seats]
    exact tie.claims
  · exact pending.held tie.pending

/-- A call that is not inside `send_task` is not current. -/
theorem current_setDispatch {pc : DispatchPc} (outside : pc.isSending = false)
    (current : (m.setDispatch d pc).Current e t l w attempt) : m.Current e t l w attempt ∧ e ≠ d := by
  obtain ⟨⟨drained, reply, sending⟩, isCurrent⟩ := current
  rw [dispatches_setDispatch] at sending
  split at sending
  · obtain ⟨_, _, same⟩ := Option.map_eq_some_iff.mp sending
    cases same
    cases outside
  · rename_i other
    exact ⟨⟨⟨drained, reply, sending⟩, isCurrent⟩, other⟩

theorem loosens_setDispatch (m : Master) (d : DispatchId) {pc : DispatchPc} (outside : pc.isSending = false) :
    Loosens m (m.setDispatch d pc) :=
  loosens_of_frame (sameSeats_setDispatch m d pc) (samePending_of_links rfl) fun _ _ _ _ _ current =>
    ⟨(current_setDispatch outside current).1, id⟩

/-- The call moves on inside `send_task`. -/
theorem loosens_sending {drained' : Bool} {reply' : Reply}
    (sending : m.dispatches[d]? = some ⟨t, .sending l w attempt drained reply⟩) :
    Loosens m (m.setDispatch d (.sending l w attempt drained' reply')) := by
  refine loosens_of_frame (sameSeats_setDispatch m d _) (samePending_of_links rfl) ?_
  rintro e u k v number ⟨⟨flag, answer, found⟩, isCurrent⟩
  refine ⟨⟨?_, isCurrent⟩, id⟩
  rw [dispatches_setDispatch] at found
  split at found
  · rename_i same
    subst same
    rw [sending, Option.map_some] at found
    cases found
    exact ⟨drained, reply, sending⟩
  · exact ⟨flag, answer, found⟩

theorem Current.congr (current : m'.Current d t l w attempt) (dispatches : m'.dispatches = m.dispatches)
    (tasks : m'.tasks = m.tasks) :
    m.Current d t l w attempt := by
  rw [Current, isCurrentAttempt, dispatches, tasks] at current
  exact current

theorem loosens_idle (same : SameSeats m m') (pending : SamePending m m') (scheduler : m'.scheduler = m.scheduler)
    (dispatches : m'.dispatches = m.dispatches) : Loosens m m' :=
  loosens_of_frame same pending fun _ _ _ _ _ current =>
    ⟨current.congr dispatches (by rw [tasks, scheduler]), fun live => by rwa [workers, scheduler]⟩

theorem loosens_recordIfTerminal (m : Master) (t : TaskId) (response : Message) :
    Loosens m (m.recordIfTerminal t response) :=
  loosens_idle (sameSeats_recordIfTerminal m t response) (samePending_of_links (by simp)) (by simp) (by simp)

theorem loosens_finishDispatch (m : Master) (d : DispatchId) (t : TaskId) (response : Message) :
    Loosens m (m.finishDispatch d t response) :=
  (loosens_recordIfTerminal m t response).trans (loosens_setDispatch _ d rfl)

theorem loosens_closeIfDraining (m : Master) (d : DispatchId) (t : TaskId) (w : WorkerId) (attempt : Nat)
    (response : Message) : Loosens m (m.closeIfDraining d t w attempt response) := by
  unfold closeIfDraining
  split
  · split
    · exact (loosens_idle (sameSeats_loseLink m _) (samePending_loseLink m _) rfl rfl).trans
        (loosens_setDispatch _ d rfl)
    · exact loosens_finishDispatch m d t response
  · exact loosens_finishDispatch m d t response

/-- Steps of the scheduler that change the status of tasks only. -/
theorem Current.of_tasks (current : m'.Current d t l w attempt) (dispatches : m'.dispatches = m.dispatches)
    (kept : ∀ t task', m'.tasks.get? t = some task' → ∃ task, m.tasks.get? t = some task ∧
      task.assignedWorkerId = task'.assignedWorkerId ∧ task.attempt = task'.attempt) :
    m.Current d t l w attempt := by
  obtain ⟨sending, isCurrent⟩ := current
  rw [dispatches] at sending
  obtain ⟨task', found', owner', same'⟩ := isCurrentAttempt_iff.mp isCurrent
  obtain ⟨task, found, owner, same⟩ := kept t task' found'
  exact ⟨sending, isCurrentAttempt_iff.mpr ⟨task, found, owner.trans owner', same.trans same'⟩⟩

/-- A change to one task that leaves its owner and its attempt. -/
theorem retasked_keeps {change : Task → Task}
    (after : ∀ u, m'.tasks.get? u = if u = t then (m.tasks.get? u).map change else m.tasks.get? u)
    (same : ∀ task, (change task).assignedWorkerId = task.assignedWorkerId ∧ (change task).attempt = task.attempt) :
    ∀ u task', m'.tasks.get? u = some task' → ∃ task, m.tasks.get? u = some task ∧
      task.assignedWorkerId = task'.assignedWorkerId ∧ task.attempt = task'.attempt := by
  intro u task' found'
  rw [after] at found'
  split at found'
  · obtain ⟨task, found, rfl⟩ := Option.map_eq_some_iff.mp found'
    exact ⟨task, found, (same task).1.symm, (same task).2.symm⟩
  · exact ⟨task', found', rfl, rfl⟩

theorem loosens_startedTask (m : Master) (t : TaskId) : Loosens m (m.startedTask t) := by
  refine loosens_of_frame (sameSeats_startedTask m t) (samePending_of_links rfl) fun _ _ _ _ _ current =>
    ⟨current.of_tasks rfl ?_, id⟩
  exact retasked_keeps (get?_startedTask m t) (fun _ => ⟨rfl, rfl⟩)

/-! ### The calls that come back from a worker -/

/-- A current call works on a task that is RUNNING on its worker. -/
def Works (m : Master) : Prop :=
  ∀ d t l w attempt, m.Current d t l w attempt → ∃ task, m.tasks.get? t = some task ∧
    task.assignedWorkerId = some w ∧ task.attempt = attempt ∧ task.status = .running

theorem works_of_fenced (fenced : m.Fenced) : m.Works := by
  rintro d t l w attempt ⟨⟨drained, reply, sending⟩, isCurrent⟩
  have sound := fenced.working sending
  exact running_of_isCurrentAttempt sound isCurrent

/-- Condemning a worker ends the attempts on it. -/
theorem loosens_condemnedWorker (works : m.Works) (w : WorkerId) : Loosens m (m.condemnedWorker w) := by
  have same : SameSeats m (m.condemnedWorker w) :=
    ⟨rfl, fun _ => rfl, fun v => generationOf_setStatus m.workers w v .failed, rfl⟩
  refine loosens_of_frame same (samePending_of_links rfl) ?_
  rintro d t l v attempt ⟨sending, isCurrent⟩
  obtain ⟨after, found', owner', same'⟩ := isCurrentAttempt_iff.mp isCurrent
  rw [get?_condemnedWorker] at found'
  obtain ⟨task, found, rfl⟩ := Option.map_eq_some_iff.mp found'
  unfold Task.requeued at owner' same'
  split at owner'
  · cases owner'
  · rename_i kept
    rw [if_neg kept] at same'
    have before : m.Current d t l v attempt := ⟨sending, isCurrentAttempt_iff.mpr ⟨task, found, owner', same'⟩⟩
    obtain ⟨task', there, _, _, running⟩ := works d t l v attempt before
    obtain rfl : task = task' := Option.some.inj (found.symm.trans there)
    have other : v ≠ w := by
      rintro rfl
      exact kept ⟨owner', by rw [running]; rfl⟩
    refine ⟨before, fun live => ?_⟩
    simpa [WorkerManager.live, workers, condemnedWorker, Scheduler.condemned_workers,
      WorkerManager.statusOf_setStatus, other] using live

theorem Unreached.loosens (works : m.Works) (outcome : Unreached m d t w attempt response m') : Loosens m m' := by
  cases outcome with
  | late _ => exact loosens_setDispatch m d rfl
  | unknown _ _ => exact loosens_setDispatch m d rfl
  | condemned _ _ =>
    exact (loosens_condemnedWorker works w).trans
      ((loosens_recordIfTerminal _ t response).trans (loosens_setDispatch _ d rfl))

theorem loosens_finishedTask (m : Master) (t : TaskId) (w : WorkerId) (response : Message) :
    Loosens m (m.finishedTask t w response) := by
  have same : SameSeats m (m.finishedTask t w response) :=
    ⟨rfl, fun _ => rfl, fun v => generationOf_released (m.scheduler.setTaskStatus t
      (if response.isSuccess then .completed else .failed)) w v, rfl⟩
  refine loosens_of_frame same (samePending_of_links rfl) fun d u l v attempt current => ⟨current.of_tasks rfl ?_, ?_⟩
  · exact retasked_keeps (fun u => get?_finishedTask m t u w response) (fun _ => ⟨rfl, rfl⟩)
  · intro live
    simp only [WorkerManager.live, workers, finishedTask, Scheduler.statusOf_finished] at live ⊢
    split
    · cases known : m.scheduler.workers.statusOf v with
      | none => simp [known] at live
      | some status => rfl
    · exact live

theorem Settled.loosens (outcome : Settled m d t w attempt response m') : Loosens m m' := by
  cases outcome with
  | late _ => exact loosens_setDispatch m d rfl
  | malformed => exact loosens_setDispatch m d rfl
  | unknown status _ _ _ =>
    have ended : Loosens m { m with scheduler := m.scheduler.setTaskStatus t status } := by
      refine loosens_of_frame ⟨rfl, fun _ => rfl, fun _ => rfl, rfl⟩ (samePending_of_links rfl)
        fun d u l v attempt current => ⟨current.of_tasks rfl ?_, id⟩
      exact retasked_keeps (fun u => Scheduler.get?_setTaskStatus m.scheduler t u status) (fun _ => ⟨rfl, rfl⟩)
    exact ended.trans (loosens_setDispatch _ d rfl)
  | settled _ _ =>
    exact (loosens_finishedTask m t w response).trans (loosens_closeIfDraining _ d t w attempt response)

theorem Unreached.left (outcome : Unreached m d t w attempt response m') (u : TaskId) (l : LinkId) (v : WorkerId)
    (number : Nat) : ¬ m'.Current d u l v number := by
  intro current
  cases outcome with
  | late _ => exact (current_setDispatch rfl current).2 rfl
  | unknown _ _ => exact (current_setDispatch rfl current).2 rfl
  | condemned _ _ => exact (current_setDispatch rfl current).2 rfl

theorem closeIfDraining_left (u : TaskId) (l : LinkId) (v : WorkerId) (number : Nat) :
    ¬ (m.closeIfDraining d t w attempt response).Current d u l v number := by
  intro current
  unfold closeIfDraining at current
  split at current
  · split at current
    · exact (current_setDispatch rfl current).2 rfl
    · exact (current_setDispatch rfl current).2 rfl
  · exact (current_setDispatch rfl current).2 rfl

theorem Settled.left (outcome : Settled m d t w attempt response m') (u : TaskId) (l : LinkId) (v : WorkerId)
    (number : Nat) : ¬ m'.Current d u l v number := by
  intro current
  cases outcome with
  | late _ => exact (current_setDispatch rfl current).2 rfl
  | malformed => exact (current_setDispatch rfl current).2 rfl
  | unknown _ _ _ _ => exact (current_setDispatch rfl current).2 rfl
  | settled _ _ => exact closeIfDraining_left u l v number current

/-- The future popped when a call is over belongs to no other current call. -/
theorem held_popPending (fenced : m.Fenced) {k : LinkId} {number : Nat}
    (sending : m.dispatches[d]? = some ⟨t, .sending l w attempt drained reply⟩) (current : m.Current e u k v number)
    (apart : e ≠ d) (held : m.Held e u k number) :
    (m.popPending l t attempt).Held e u k number := by
  obtain ⟨link, there, future⟩ := held
  rw [Held, popPending, links_modifyLink]
  split
  · refine ⟨_, by rw [there]; rfl, ?_⟩
    simp only [Dict.get?_erase]
    rw [if_neg]
    · exact future
    · intro named
      obtain ⟨rfl, rfl⟩ := attemptRequestId_injective named
      -- both calls would hold the current attempt
      obtain ⟨⟨flag, answer, other⟩, isCurrent⟩ := current
      obtain ⟨task, found, _, same⟩ := isCurrentAttempt_iff.mp isCurrent
      have mine : (m.lease u).holders d = some (.working w (m.lease u).attempt) := by
        simp [lease, sending, Dispatch.holder, found, same]
      have theirs : (m.lease u).holders e = some (.working v (m.lease u).attempt) := by
        simp [lease, other, Dispatch.holder, found, same]
      exact apart ((fenced.leases u).alone d e w v mine theirs).symm
  · exact ⟨link, there, future⟩

/-- A call pops its future on the way out. -/
theorem loosens_popped (fenced : m.Fenced) (sending : m.dispatches[d]? = some ⟨t, .sending l w attempt drained reply⟩)
    (after : Loosens (m.popPending l t attempt) m') (same : SamePending (m.popPending l t attempt) m')
    (left : ∀ u k v number, ¬ m'.Current d u k v number) : Loosens m m' ∧ Retains m m' := by
  have apart : ∀ {e u k v number}, m'.Current e u k v number → e ≠ d := by
    rintro e u k v number current rfl
    exact left u k v number current
  constructor
  · intro e u k v number current
    obtain ⟨before, keeps⟩ := after e u k v number current
    have earlier : m.Current e u k v number := before
    refine ⟨earlier, fun tie => keeps ⟨tie.seat, ?_, ?_, tie.live⟩⟩
    · rw [(sameSeats_popPending m l t attempt).seats]
      exact tie.claims
    · exact held_popPending fenced sending earlier (apart current) tie.pending
  · intro e u k v number current held
    have earlier : m.Current e u k v number := (after e u k v number current).1
    exact same.held (held_popPending fenced sending earlier (apart current) held)

/-! ### Handlers and the monitor -/

theorem samePending_cleanup (m : Master) (l : LinkId) (link : Link) : SamePending m (m.cleanup l link) := by
  intro k old found
  rw [cleanup_links]
  exact samePending_modifyLink m l (f := fun link => { link with lost := true, pc := .closing }) (fun _ => rfl)
    k old found

theorem loosens_cleanup (there : m.links[l]? = some link) :
    Loosens m (m.cleanup l link) := by
  rintro d t k w attempt ⟨⟨drained, reply, sending⟩, isCurrent⟩
  have before : m.Current d t k w attempt := by
    refine ⟨?_, by rwa [isCurrentAttempt, cleanup_tasks] at isCurrent⟩
    rw [cleanup_dispatches, dispatches_failPending] at sending
    obtain ⟨dispatch, found, failed⟩ := Option.map_eq_some_iff.mp sending
    split at failed
    · obtain ⟨answer, rfl, _⟩ := failReply_sending failed
      exact ⟨drained, answer, found⟩
    · exact ⟨drained, reply, by rw [found, failed]⟩
  refine ⟨before, fun tie => ⟨?_, ?_, ?_, ?_⟩⟩
  · rw [cleanup_connections]
    split
    · exact .inr rfl
    · exact tie.seat
  · intro j claims
    rw [seats_cleanup there] at claims
    simp only [Succession.State.left, Function.update_apply] at claims
    split at claims
    · cases claims
    · exact tie.claims j claims
  · exact (samePending_cleanup m l link).held tie.pending
  · rcases cleanup_scheduler m l link with same | ⟨v, mine, current, _, free, stopped⟩
    · rw [workers, same]
      exact tie.live
    · -- a worker with a current call has a future pending on its link
      have other : w ≠ v := by
        rintro rfl
        rcases tie.seat with seat | none
        · obtain rfl : k = l := Option.some.inj (seat.symm.trans current)
          obtain ⟨own, found, held⟩ := tie.pending
          obtain rfl : link = own := Option.some.inj (there.symm.trans found)
          have member := Dict.mem_entries.mpr held
          simp only [Link.hasPending, Bool.not_eq_false', List.isEmpty_iff] at free
          rw [free] at member
          cases member
        · rw [current] at none
          cases none
      rw [workers, stopped, Scheduler.setWorkerStatus_workers]
      simpa [WorkerManager.live, WorkerManager.statusOf_setStatus, other] using tie.live

theorem samePending_install (m : Master) (l : LinkId) (w : WorkerId) : SamePending m (m.install l w) := by
  have placed : SamePending m (m.modifyLink l (fun link => { link with
      workerId := some w, generation := (m.workers.get? w).map Worker.generation })) :=
    samePending_modifyLink m l fun _ => rfl
  simp only [install]
  split
  · split
    · exact placed.trans (samePending_setHandler _ l _)
    · exact placed.trans ((samePending_loseLink _ _).trans (samePending_setHandler _ l _))
  · exact placed.trans (samePending_setHandler _ l _)

theorem loosens_install (recorded : Succession.Recorded m.seats) (there : m.links[l]? = some link)
    (claims : link.pc.registering = some v) : Loosens m (m.install l v) := by
  have claimed : m.seats.claim l = some v := claim_eq_some.mpr ⟨link, there, claims⟩
  intro d t k w attempt current
  have scheduler := install_scheduler m l v
  refine ⟨current.congr (install_dispatches m l v) (by rw [tasks, scheduler]), fun tie => ⟨?_, ?_, ?_, ?_⟩⟩
  · rw [install_connections, Dict.get?_insert]
    split
    · rename_i same
      subst same
      exact .inl (by rw [tie.claims l claimed])
    · exact tie.seat
  · intro j claiming
    rw [seats_install there (generation_of_claim recorded claimed)] at claiming
    simp only [Succession.State.installed, Function.update_apply] at claiming
    split at claiming
    · cases claiming
    · exact tie.claims j claiming
  · exact (samePending_install m l v).held tie.pending
  · rw [workers, scheduler]
    exact tie.live

theorem loosens_answered {message : Message} {now : Time} {ws : WorkerManager} (there : m.links[l]? = some link)
    (reading : link.pc = .reading) (handled : Handled m.workers message now response ws) :
    Loosens m (m.answered l message response ws now) := by
  have pending : SamePending m (m.answered l message response ws now) :=
    samePending_setHandler m l (.replying message response)
  have steady : SameSeats m (m.answered l message response ws now) →
      (∀ w, m.workers.live w = true → ws.live w = true) → Loosens m (m.answered l message response ws now) :=
    fun same kept => loosens_of_frame same pending fun _ _ _ w _ current => ⟨current.congr rfl rfl, kept w⟩
  cases handled with
  | @registered v _ granted ack =>
    intro d t k w attempt current
    refine ⟨current.congr rfl rfl, fun tie => ?_⟩
    obtain ⟨worker, _, _, rfl, _, replaced⟩ := grantedRegistration_some granted
    -- only a FAILED or STOPPED worker, or none, is replaced
    have other : w ≠ v := by
      rintro rfl
      have live := tie.live
      rcases replaced with ⟨absent, _⟩ | ⟨old, found, replaceable, _⟩
      · simp [WorkerManager.live, WorkerManager.statusOf, absent] at live
      · simp [WorkerManager.live, WorkerManager.statusOf, found, replaceable] at live
    refine ⟨tie.seat, fun j claims => ?_, ?_, ?_⟩
    · rw [seats_registered there granted ack] at claims
      simp only [Succession.State.registered, Function.update_apply] at claims
      split at claims
      · exact absurd (Option.some.inj claims).symm other
      · exact tie.claims j claims
    · exact pending.held tie.pending
    · have live := tie.live
      simpa [WorkerManager.live, WorkerManager.statusOf, workers, answered, setHandler, modifyLink,
        Dict.get?_insert, other] using live
  | unchanged refused other =>
    exact steady (sameSeats_unregistered there reading refused other fun _ => rfl) fun _ => id
  | beat type _ _ other =>
    refine steady (sameSeats_unregistered there reading (grantedRegistration_of_ne (by simp [type])) other ?_) ?_
    · exact fun v => generationOf_beat m.workers _ v now
    · intro v live
      rwa [WorkerManager.live, WorkerManager.statusOf_beat]
  | @drained v worker type _ known _ other =>
    refine steady (sameSeats_unregistered there reading (grantedRegistration_of_ne (by simp [type])) other ?_) ?_
    · exact fun w => generationOf_setStatus m.workers v w .draining
    · intro w live
      exact live_setStatus_of_known known rfl live

theorem loosens_stale (works : m.Works) (now : Time) : Loosens m (m.condemnedStale now) := by
  refine loosens_of_frame (sameSeats_condemnedStale m now) (samePending_of_links rfl) ?_
  rintro d t l w attempt ⟨sending, isCurrent⟩
  obtain ⟨after, found', owner', same'⟩ := isCurrentAttempt_iff.mp isCurrent
  rw [tasks, condemnedStale, Scheduler.get?_condemnStale] at found'
  obtain ⟨task, found, rfl⟩ := Option.map_eq_some_iff.mp found'
  split at owner'
  · cases owner'
  · rename_i kept
    rw [if_neg kept] at same'
    have before : m.Current d t l w attempt := ⟨sending, isCurrentAttempt_iff.mpr ⟨task, found, owner', same'⟩⟩
    obtain ⟨task', there, _, _, running⟩ := works d t l w attempt before
    obtain rfl : task = task' := Option.some.inj (found.symm.trans there)
    have fresh : w ∉ (m.scheduler.workers.getStaleWorkers heartbeatTimeout now).1 := fun old =>
      kept ⟨⟨w, old, owner'⟩, by rw [running]; rfl⟩
    refine ⟨before, fun live => ?_⟩
    rw [workers, condemnedStale, Scheduler.condemnStale_workers, WorkerManager.live, Scheduler.statusOf_stale,
      if_neg fresh]
    exact live

theorem loosens_submit (taskType : String) (payload : List (Key × Val)) :
    Loosens m (m.submittedTask t taskType payload) := by
  refine loosens_of_frame ⟨rfl, fun _ => rfl, fun _ => rfl, rfl⟩ (samePending_of_links rfl) ?_
  rintro d u l w attempt ⟨sending, isCurrent⟩
  obtain ⟨task, found, owner, same⟩ := isCurrentAttempt_iff.mp isCurrent
  rw [get?_submittedTask] at found
  split at found
  · cases found
    cases owner
  · exact ⟨⟨sending, isCurrentAttempt_iff.mpr ⟨task, found, owner, same⟩⟩, id⟩

/-! ### The condition, and every step -/

/-- The task an action is about to write to a worker, and on which link. -/
def sends (m : Master) : Action → Option (Task × WorkerId × LinkId)
  | .startDispatch d _ =>
    match m.dispatches[d]? with
    | some ⟨t, .spawned⟩ =>
      (m.tasks.get? t).bind (fun task =>
        if task.status = .assigned then
          task.assignedWorkerId.bind (fun w => (m.connections.get? w).map (fun l => (task, w, l)))
        else none)
    | _ => none
  | _ => none

/-- A task that is about to be written has a payload JSON can encode, its worker is
neither FAILED nor STOPPED, and no handler of another link is in the middle of a
REGISTER for that worker. -/
def startsFairly (m : Master) (a : Action) : Prop :=
  ∀ sent ∈ m.sends a, entriesJsonError sent.1.payload = none ∧ m.workers.live sent.2.1 = true ∧
    ∀ k < m.links.length, m.seats.claim k = some sent.2.1 → k = sent.2.2

instance (m : Master) (a : Action) : Decidable (m.startsFairly a) :=
  inferInstanceAs (Decidable (∀ sent ∈ m.sends a, _ ∧ _ ∧ _))

theorem sends_of_spawned (spawned : m.dispatches[d]? = some ⟨t, .spawned⟩) (found : m.tasks.get? t = some task)
    (assigned : task.status = .assigned) (owner : task.assignedWorkerId = some w)
    (connected : m.connections.get? w = some l) (depth : Nat) :
    m.sends (.startDispatch d depth) = some (task, w, l) := by
  simp [sends, spawned, found, assigned, owner, connected]

theorem link_of_seat (recorded : Succession.Recorded m.seats) (seated : m.connections.get? w = some l) :
    ∃ link, m.links[l]? = some link := by
  have named := recorded.seated w l seated
  simp only [seats, face] at named
  cases there : m.links[l]? with
  | none => simp [there] at named
  | some link => exact ⟨link, rfl⟩

/-- A call for the task that starts is not current before. -/
theorem other_of_assigned (works : m.Works) (found : m.tasks.get? t = some task) (assigned : task.status = .assigned)
    (current : m.Current d u l w attempt) : u ≠ t := by
  rintro rfl
  obtain ⟨task', there, _, _, running⟩ := works d u l w attempt current
  rw [found] at there
  cases there
  rw [assigned] at running
  cases running

/-- A call that is written is held by its link, and the others stay held. -/
theorem held_writeTask (works : m.Works) (recorded : Succession.Recorded m.seats) (found : m.tasks.get? t = some task)
    (assigned : task.status = .assigned) (connected : m.connections.get? w = some l) :
    ((m.startedTask t).writeTask d t task w l).Held d t l task.attempt ∧
    ∀ e u k v number, m.Current e u k v number → m.Held e u k number →
      ((m.startedTask t).writeTask d t task w l).Held e u k number := by
  have links : ∀ k : LinkId, ((m.startedTask t).writeTask d t task w l).links[k]? =
      if k = l then (m.links[k]?).map (fun link =>
        { link with pending := link.pending.insert (attemptRequestId t task.attempt) d }) else m.links[k]? :=
    fun k => links_modifyLink m l k _
  constructor
  · obtain ⟨link, inTable⟩ := link_of_seat recorded connected
    rw [Held, links, if_pos rfl, inTable]
    exact ⟨_, rfl, Dict.get?_insert_self ..⟩
  · rintro e u k v number current ⟨link, inTable, future⟩
    rw [Held, links, inTable]
    split
    · refine ⟨_, rfl, ?_⟩
      rw [Dict.get?_insert, if_neg]
      · exact future
      · exact fun named => other_of_assigned works found assigned current (attemptRequestId_injective named).1
    · exact ⟨link, rfl, future⟩

/-- A call of the state after a write is the one written, or was current before. -/
theorem current_writeTask {k : LinkId} {number : Nat} (spawned : m.dispatches[d]? = some ⟨t, .spawned⟩)
    (current : ((m.startedTask t).writeTask d t task w l).Current e u k v number) :
    (e = d ∧ u = t ∧ k = l ∧ v = w ∧ number = task.attempt) ∨ m.Current e u k v number := by
  obtain ⟨⟨drained, reply, sending⟩, isCurrent⟩ := current
  rw [writeTask, dispatches_setDispatch] at sending
  split at sending
  · rename_i mine
    subst mine
    obtain ⟨_, there, call⟩ := Option.map_eq_some_iff.mp sending
    obtain rfl := Option.some.inj (spawned.symm.trans there)
    cases call
    exact .inl ⟨rfl, rfl, rfl, rfl, rfl⟩
  · have started : (m.startedTask t).Current e u k v number := ⟨⟨drained, reply, sending⟩, isCurrent⟩
    exact .inr (loosens_startedTask m t e u k v number started).1

/-- A new call is tied to the link it is written on, and cuts no other tie. -/
theorem Tied.write (tied : m.Tied) (works : m.Works) (recorded : Succession.Recorded m.seats) {depth : Nat}
    (good : m.startsFairly (.startDispatch d depth)) (spawned : m.dispatches[d]? = some ⟨t, .spawned⟩)
    (found : m.tasks.get? t = some task) (assigned : task.status = .assigned) (owner : task.assignedWorkerId = some w)
    (connected : m.connections.get? w = some l) :
    ((m.startedTask t).writeTask d t task w l).Tied := by
  obtain ⟨_, live, alone⟩ := good _ (sends_of_spawned spawned found assigned owner connected depth)
  obtain ⟨held, kept⟩ := held_writeTask (d := d) works recorded found assigned connected
  have same : SameSeats m ((m.startedTask t).writeTask d t task w l) :=
    (sameSeats_startedTask m t).trans (sameSeats_writeTask _ d t task w l)
  intro e u k v number current
  rcases current_writeTask spawned current with ⟨rfl, rfl, rfl, rfl, rfl⟩ | before
  · refine ⟨.inl connected, fun j claims => ?_, held, live⟩
    rw [same.seats] at claims
    obtain ⟨link, inTable, _⟩ := claim_eq_some.mp claims
    exact alone j (List.getElem?_eq_some_iff.mp inTable).1 claims
  · have tie := tied e u k v number before
    refine ⟨?_, ?_, kept e u k v number before tie.pending, tie.live⟩
    · rw [same.connections]
      exact tie.seat
    · rw [same.seats]
      exact tie.claims

theorem tooManyDigits_of_small {n : Nat} (small : n ≤ maxTaskAttempts) : tooManyDigits n = false := by
  have cases : n = 0 ∨ n = 1 ∨ n = 2 ∨ n = 3 := by
    simp only [maxTaskAttempts] at small
    omega
  rcases cases with rfl | rfl | rfl | rfl <;> decide

/-- The payload is the only part of a TASK message that JSON may refuse. -/
theorem refused_taskRequest (payload : entriesJsonError task.payload = none)
    (attempt : task.attempt ≤ maxTaskAttempts) (depth : Nat) : refused depth (taskRequest t task) = false := by
  have number : intJsonError (task.attempt : Int) = none := by
    simp [intJsonError, tooManyDigits_of_small attempt]
  have accepted : (taskRequest t task).toVal.jsonError = none := by
    simp [taskRequest, buildMessage, Message.toVal, Val.jsonError, entriesJsonError, Key.jsonError, payload, number]
  rcases Val.jsonFault_of_accepted accepted depth with safe | deep
  · simp [refused, encodeMessage, safe]
  · simp [refused, encodeMessage, deep]

theorem attempt_of_assigned (fenced : m.Fenced) (found : m.tasks.get? t = some task)
    (assigned : task.status = .assigned) : task.attempt ≤ maxTaskAttempts := by
  obtain ⟨status, _, attempt⟩ := lease_of_task found
  have bound := ((fenced.leases t).started (by rw [status, assigned]; exact nofun)).2
  rw [attempt] at bound
  exact bound

theorem works_startedTask (works : m.Works) (found : m.tasks.get? t = some task)
    (assigned : task.status = .assigned) : (m.startedTask t).Works := by
  intro d u l w attempt current
  have before := (loosens_startedTask m t d u l w attempt current).1
  obtain ⟨task', there, owner, same, running⟩ := works d u l w attempt before
  exact ⟨task', by rw [get?_startedTask, if_neg (other_of_assigned works found assigned before), there], owner, same,
    running⟩

/-- A task that JSON refuses was not written for any call. -/
theorem loosens_unsent (works : m.Works) (found : m.tasks.get? t = some task) (assigned : task.status = .assigned) :
    Loosens m ((m.startedTask t).popPending l t task.attempt) ∧
      Retains m ((m.startedTask t).popPending l t task.attempt) := by
  have held : ∀ {e u k v number}, m.Current e u k v number → m.Held e u k number →
      ((m.startedTask t).popPending l t task.attempt).Held e u k number := by
    rintro e u k v number current ⟨link, there, future⟩
    have there' : (m.startedTask t).links[k]? = some link := there
    rw [Held, popPending, links_modifyLink, there']
    split
    · refine ⟨_, rfl, ?_⟩
      rw [Dict.get?_erase, if_neg, future]
      exact fun named => other_of_assigned works found assigned current (attemptRequestId_injective named).1
    · exact ⟨link, rfl, future⟩
  constructor
  · intro e u k v number current
    have started : (m.startedTask t).Current e u k v number := current
    obtain ⟨before, keeps⟩ := loosens_startedTask m t e u k v number started
    refine ⟨before, fun tie => ⟨(keeps tie).seat, ?_, held before tie.pending, (keeps tie).live⟩⟩
    rw [(sameSeats_popPending (m.startedTask t) l t task.attempt).seats]
    exact (keeps tie).claims
  · intro e u k v number current
    exact held (loosens_startedTask m t e u k v number current).1

theorem Retains.trans (first : Retains m m') (loosens : Loosens m' m'') (second : SamePending m' m'') :
    Retains m m'' := by
  intro d t l w attempt current held
  exact second.held (first d t l w attempt (loosens d t l w attempt current).1 held)

theorem samePending_handleReply (m : Master) (d : DispatchId) (t : TaskId) (w : WorkerId) (attempt : Nat)
    (response : Message) : SamePending m (m.handleReply d t w attempt response) := by
  rcases (handleReply_outcome m d t w attempt response).links with same | ⟨k, _, _, _, after⟩
  · exact samePending_of_links same
  · intro j link there
    rw [after]
    exact samePending_loseLink m k j link there

/-- A move makes no call current but the one it writes to a worker. -/
theorem Micro.loosens (fenced : m.Fenced) (recorded : Succession.Recorded m.seats) (move : Micro m a mid) :
    (Loosens m mid ∧ Retains m mid) ∨
      ∃ d depth t task w l, a = .startDispatch d depth ∧ m.dispatches[d]? = some ⟨t, .spawned⟩ ∧
        m.tasks.get? t = some task ∧ task.status = .assigned ∧ task.assignedWorkerId = some w ∧
        m.connections.get? w = some l ∧ mid = (m.startedTask t).writeTask d t task w l := by
  have works := works_of_fenced fenced
  have idle : ∀ {m'}, Loosens m m' → m'.links = m.links → Loosens m m' ∧ Retains m m' :=
    fun loosens links => ⟨loosens, (samePending_of_links links).retains⟩
  have popped : ∀ {d t l w attempt drained reply reason},
      m.dispatches[d]? = some ⟨t, .sending l w attempt drained reply⟩ →
      Loosens m ((m.popPending l t attempt).unreachable d t w attempt reason) ∧
        Retains m ((m.popPending l t attempt).unreachable d t w attempt reason) := by
    intro d t l w attempt drained reply reason sending
    have outcome := unreachable_outcome (m.popPending l t attempt) d t w attempt reason
    exact loosens_popped fenced sending (outcome.loosens works) (samePending_of_links outcome.links) outcome.left
  cases move with
  | skip _ => exact .inl (idle (fun _ _ _ _ _ current => ⟨current, id⟩) rfl)
  | submit _ => exact .inl (idle (loosens_submit _ _) rfl)
  | accept =>
    have same : SamePending m { m with links := m.links ++ [Link.fresh] } := fun l link there =>
      ⟨link, by rw [List.getElem?_append_left (List.getElem?_eq_some_iff.mp there).1, there], rfl⟩
    exact .inl ⟨loosens_idle (sameSeats_accept m) same rfl rfl, same.retains⟩
  | lose _ =>
    exact .inl ⟨loosens_idle (sameSeats_loseLink m _) (samePending_loseLink m _) rfl rfl,
      (samePending_loseLink m _).retains⟩
  | cleanup _ there _ _ => exact .inl ⟨loosens_cleanup there, (samePending_cleanup m _ _).retains⟩
  | resolve _ _ sending => exact .inl (idle (loosens_sending sending) rfl)
  | handle there reading _ handled =>
    exact .inl ⟨loosens_answered there reading (handleRequest_handled handled),
      (samePending_setHandler m _ _).retains⟩
  | install there claims => exact .inl ⟨loosens_install recorded there claims, (samePending_install m _ _).retains⟩
  | @handler _ l _ pc _ there none quiet _ =>
    have same := samePending_setHandler m l pc
    exact .inl ⟨loosens_idle (sameSeats_setHandler there ((quiet_registering quiet).trans none.symm)) same rfl rfl,
      same.retains⟩
  | startRaises _ _ => exact .inl (idle (loosens_setDispatch m _ rfl) rfl)
  | @orphan d t _ _ _ _ _ _ => exact .inl (idle ((loosens_startedTask m t).trans (loosens_setDispatch _ d rfl)) rfl)
  | @unreached d t task w _ _ found assigned _ _ =>
    have outcome := unreachable_outcome (m.startedTask t) d t w task.attempt "no connection"
    exact .inl (idle ((loosens_startedTask m t).trans
      (outcome.loosens (works_startedTask works found assigned))) outcome.links)
  | @unencodable d t task w l _ reason _ found assigned _ _ _ =>
    obtain ⟨loosens, retains⟩ := loosens_unsent (l := l) works found assigned
    have outcome := unreachable_outcome ((m.startedTask t).popPending l t task.attempt) d t w task.attempt reason
    have still : ((m.startedTask t).popPending l t task.attempt).Works := works_startedTask works found assigned
    have after := outcome.loosens still
    exact .inl ⟨loosens.trans after, retains.trans after (samePending_of_links outcome.links)⟩
  | @overflow d t task _ l _ _ found assigned _ _ _ =>
    obtain ⟨loosens, retains⟩ := loosens_unsent (l := l) works found assigned
    have after : Loosens ((m.startedTask t).popPending l t task.attempt)
        (((m.startedTask t).popPending l t task.attempt).setDispatch d .raised) := loosens_setDispatch _ d rfl
    exact .inl ⟨loosens.trans after, retains.trans after (samePending_of_links rfl)⟩
  | write spawned found assigned owner connected =>
    exact .inr ⟨_, _, _, _, _, _, rfl, spawned, found, assigned, owner, connected, rfl⟩
  | drained sending => exact .inl (idle (loosens_sending sending) rfl)
  | sendLost sending _ _ => exact .inl (popped sending)
  | replyLost sending => exact .inl (popped sending)
  | @replied d t l w attempt response sending =>
    have outcome := handleReply_outcome (m.popPending l t attempt) d t w attempt response
    exact .inl (loosens_popped fenced sending outcome.loosens (samePending_handleReply _ d t w attempt response)
      outcome.left)
  | abort sending =>
    refine .inl (loosens_popped fenced sending (loosens_setDispatch _ _ rfl) (samePending_of_links rfl) ?_)
    exact fun u k v number current => (current_setDispatch rfl current).2 rfl
  | finish _ => exact .inl (idle (loosens_finishDispatch m _ _ _) (finishDispatch_links m _ _ _))
  | abandon _ => exact .inl (idle (loosens_setDispatch m _ rfl) rfl)
  | stale _ => exact .inl (idle (loosens_stale works _) rfl)
  | clear =>
    refine .inl (idle (fun d t l w attempt current => ⟨current.congr rfl rfl, fun tie => ?_⟩) rfl)
    exact ⟨.inr rfl, tie.claims, tie.pending, tie.live⟩

/-- A task that is granted again has an attempt no call has captured. -/
theorem Loop.loosens (sound : ∀ t, Lease.Sound (leaseRules t) (m.lease t)) (loop : Loop m m') :
    Loosens m m' ∧ SamePending m m' := by
  have same : SamePending m m' := by
    cases loop with
    | grant | spawn | loops => exact samePending_of_links rfl
  refine ⟨loosens_of_frame loop.sameSeats same ?_, same⟩
  rintro d u l v attempt ⟨⟨drained, reply, sending⟩, isCurrent⟩
  cases loop with
  | @grant t w task worker found pending known idle =>
    obtain ⟨after, found', owner', same'⟩ := isCurrentAttempt_iff.mp isCurrent
    rw [tasks, Scheduler.get?_grant] at found'
    split at found'
    · rename_i mine
      subst mine
      obtain ⟨before, there, rfl⟩ := Option.map_eq_some_iff.mp found'
      have bound := ((sound u).working d v attempt (by simp [lease, sending, Dispatch.holder])).1
      rw [(lease_of_task there).2.2] at bound
      simp only at same'
      omega
    · refine ⟨⟨⟨drained, reply, sending⟩, isCurrentAttempt_iff.mpr ⟨after, found', owner', same'⟩⟩, fun live => ?_⟩
      rw [workers, Scheduler.grant_workers]
      exact live_setStatus_of_known known rfl live
  | spawn batch =>
    rcases spawned_lookup sending with there | ⟨fresh, _⟩
    · exact ⟨⟨⟨drained, reply, there⟩, isCurrent⟩, id⟩
    · cases fresh
  | loops _ _ _ => exact ⟨⟨⟨drained, reply, sending⟩, isCurrent⟩, id⟩

theorem Tied.micro (tied : m.Tied) (fenced : m.Fenced) (recorded : Succession.Recorded m.seats)
    (good : m.startsFairly a) (move : Micro m a mid) : mid.Tied := by
  rcases move.loosens fenced recorded with
    ⟨loosens, _⟩ | ⟨d, _, t, task, w, l, rfl, spawned, found, assigned, owner, connected, rfl⟩
  · exact tied.loosen loosens
  · exact tied.write (works_of_fenced fenced) recorded good spawned found assigned owner connected

/-- An invariant whose step needs the leases to be sound in between as well. -/
theorem invariant_of_leases {ok : Master → Action → Prop} {I : Master → Prop} (start : I initial)
    (micro : ∀ {n a mid}, n.Fenced → Succession.Recorded n.seats → ok n a → I n → Micro n a mid → I mid)
    (onward : ∀ {s s'}, Loop s s' → (∀ t, Lease.Sound (leaseRules t) (s.lease t)) → I s → I s')
    (run : Steps step ok initial m) : I m := by
  refine run.invariant_with (J := fun n => n.Fenced ∧ Succession.Recorded n.seats)
    (fun n before => ⟨fenced_of_run before, recorded_of_run before⟩) start ?_
  rintro n a n' ⟨fenced, recorded⟩ kept good taken
  have both : (∀ t, Lease.Sound (leaseRules t) (n'.lease t)) ∧ I n' := by
    refine step_preserves (I := fun s => (∀ t, Lease.Sound (leaseRules t) (s.lease t)) ∧ I s) taken ?_ ?_
    · exact fun mid move => ⟨fun t => (fenced.leases t).run (move.leases fenced t),
        micro fenced recorded good kept move⟩
    · rintro s s' loop ⟨sound, still⟩
      have moves : ∀ t, ReflTransGen (Lease.Move (leaseRules t) False) (s.lease t) (s'.lease t) :=
        fun t => loop.leases t
      exact ⟨fun t => (sound t).run (moves t), onward loop sound still⟩
  exact both.2

theorem tied_of_run (run : Steps step startsFairly initial m) : m.Tied := by
  refine invariant_of_leases ?_ ?_ ?_ run
  · rintro d t l w attempt ⟨⟨_, _, sending⟩, _⟩
    cases sending
  · exact fun fenced recorded good tied move => tied.micro fenced recorded good move
  · exact fun loop sound tied => tied.loosen (loop.loosens sound).1

/-! ### Why a worker becomes FAILED -/

/-- `w` turns FAILED between the two states. -/
def Fails (m m' : Master) (w : WorkerId) : Prop :=
  m.workers.statusOf w ≠ some .failed ∧ m'.workers.statusOf w = some .failed

theorem Fails.of_scheduler (fails : Fails m m' w) (same : m'.scheduler = m.scheduler) : False := by
  obtain ⟨before, after⟩ := fails
  rw [workers, same] at after
  exact before after

theorem Unreached.fails (outcome : Unreached m d t v attempt response m') (fails : Fails m m' w) :
    w = v ∧ m.isCurrentAttempt t v attempt = true := by
  cases outcome with
  | late _ => exact absurd (fails.of_scheduler rfl) id
  | unknown _ _ => exact absurd (fails.of_scheduler rfl) id
  | condemned current _ =>
    refine ⟨?_, current⟩
    by_contra other
    obtain ⟨before, after⟩ := fails
    simp only [workers, setDispatch, recordIfTerminal_scheduler, condemnedWorker, Scheduler.condemned_workers,
      WorkerManager.statusOf_setStatus, if_neg other] at after
    exact before after

theorem Settled.fails (outcome : Settled m d t v attempt response m') : ¬ Fails m m' w := by
  intro fails
  cases outcome with
  | late _ => exact fails.of_scheduler rfl
  | malformed => exact fails.of_scheduler rfl
  | unknown _ _ _ _ => exact fails.1 fails.2
  | settled _ _ =>
    obtain ⟨before, after⟩ := fails
    rw [workers, closeIfDraining_scheduler] at after
    simp only [finishedTask, Scheduler.statusOf_finished] at after
    split at after
    · obtain ⟨_, _, impossible⟩ := Option.map_eq_some_iff.mp after
      cases impossible
    · exact before after

theorem Handled.fails {ws ws' : WorkerManager} {message : Message} {now : Time}
    (handled : DistributedCompute.Handled ws message now response ws') (after : ws'.statusOf w = some .failed) :
    ws.statusOf w = some .failed := by
  rcases handled.statusOf w with same | ⟨_, idle⟩ | ⟨_, _, _, draining⟩
  · rw [← same, after]
  · simp [idle] at after
  · simp [draining] at after

/-- The connection of `w` is gone, or action `a` is a tick that finds it silent. -/
def HasFailed (m : Master) (a : Action) (w : WorkerId) : Prop :=
  m.connections.get? w = none ∨
  (∃ l link, m.connections.get? w = some l ∧ m.links[l]? = some link ∧ link.lost = true) ∨
  (∃ i now worker beat, a = .monitorTick i now ∧ m.workers.get? w = some worker ∧
    worker.lastHeartbeat = some beat ∧ now - beat > heartbeatTimeout)

theorem hasFailed_of_lost (tie : m.Tie d t l w attempt) (there : m.links[l]? = some link) (lost : link.lost = true) :
    m.HasFailed a w := by
  rcases tie.seat with seat | none
  · exact .inr (.inl ⟨l, link, seat, there, lost⟩)
  · exact .inl none

theorem Micro.failure (fenced : m.Fenced) (tied : m.Tied) (good : m.startsFairly a) (move : Micro m a mid)
    (fails : Fails m mid w) : m.HasFailed a w := by
  cases move with
  | @cleanup _ l link _ _ _ _ =>
    rcases cleanup_scheduler m l link with same | ⟨v, _, _, _, _, stopped⟩
    · exact (fails.of_scheduler same).elim
    · obtain ⟨before, after⟩ := fails
      rw [workers, stopped, Scheduler.setWorkerStatus_workers, WorkerManager.statusOf_setStatus] at after
      split at after
      · obtain ⟨_, _, impossible⟩ := Option.map_eq_some_iff.mp after
        cases impossible
      · exact absurd after before
  | handle _ _ _ handled => exact absurd (Handled.fails (handleRequest_handled handled) fails.2) fails.1
  | install _ _ => exact (fails.of_scheduler (install_scheduler ..)).elim
  | @unreached d t task v _ _ _ _ _ absent =>
    have outcome := unreachable_outcome (m.startedTask t) d t v task.attempt "no connection"
    obtain ⟨rfl, _⟩ := outcome.fails fails
    exact .inl absent
  | @unencodable d t task v l depth reason spawned found assigned owner connected cannot =>
    obtain ⟨payload, _, _⟩ := good _ (sends_of_spawned spawned found assigned owner connected depth)
    have accepted := refused_taskRequest (t := t) payload (attempt_of_assigned fenced found assigned) depth
    simp [refused, cannot] at accepted
  | @sendLost d t l link v attempt reply reason sending there lost =>
    have outcome := unreachable_outcome (m.popPending l t attempt) d t v attempt reason
    obtain ⟨rfl, current⟩ := outcome.fails fails
    exact hasFailed_of_lost (tied d t l w attempt ⟨⟨_, _, sending⟩, current⟩) there lost
  | @replyLost d t l v attempt reason sending =>
    have outcome := unreachable_outcome (m.popPending l t attempt) d t v attempt reason
    obtain ⟨rfl, current⟩ := outcome.fails fails
    obtain ⟨link, there, lost⟩ := fenced.base.wired.failed d t l w attempt true reason sending
    exact hasFailed_of_lost (tied d t l w attempt ⟨⟨_, _, sending⟩, current⟩) there lost
  | @replied d t l v attempt response _ =>
    have outcome := handleReply_outcome (m.popPending l t attempt) d t v attempt response
    exact absurd fails outcome.fails
  | finish _ => exact (fails.of_scheduler (finishDispatch_scheduler ..)).elim
  | @stale i now _ =>
    obtain ⟨before, after⟩ := fails
    rw [workers, condemnedStale, Scheduler.condemnStale_workers, Scheduler.statusOf_stale] at after
    split at after
    · rename_i old
      obtain ⟨worker, found, isStale⟩ := WorkerManager.mem_staleWorkers.mp old
      unfold Worker.stale at isStale
      split at isStale
      · cases isStale
      · rename_i beat known
        simp only [Bool.and_eq_true, decide_eq_true_eq] at isStale
        exact .inr (.inr ⟨i, now, worker, beat, rfl, found, known, isStale.2⟩)
    · exact absurd after before
  | submit | orphan | overflow | write => exact absurd fails.2 fails.1
  | skip | accept | lose | resolve | handler | startRaises | drained | abort | abandon | clear =>
    exact absurd fails.2 fails.1

/-- Assignment fails no worker. -/
theorem Loop.failed (loop : Loop m m') (after : m'.workers.statusOf w = some .failed) :
    m.workers.statusOf w = some .failed := by
  cases loop with
  | grant _ _ _ _ =>
    rw [workers, Scheduler.grant_workers, WorkerManager.statusOf_setStatus] at after
    split at after
    · obtain ⟨_, _, impossible⟩ := Option.map_eq_some_iff.mp after
      cases impossible
    · exact after
  | spawn _ => exact after
  | loops _ _ _ => exact after

/-- A task whose payload holds an object that JSON cannot encode. -/
def unencodableRun : List Action :=
  registeredRun ++ [.submitTask "t" "ADD" [(.str "x", .object "set")], .startDispatcher, .dispatcherTick]

end Master
end DistributedCompute
