import DistributedCompute.Moves

/-! Two invariants of every run on which the later ones rest. `Owned`: an
in-flight task has a worker, and the worker is registered. `Wired`: the futures
on the links and the suspended sends belong together, a delivered reply carries
the request_id it was matched by, and a send fails only on a lost link. -/
namespace DistributedCompute
open Py Relation Transition

/-- No condition on the steps: every run. -/
def anyStep (_ : Master) (_ : Action) : Prop := True

instance (m : Master) (a : Action) : Decidable (anyStep m a) := inferInstanceAs (Decidable True)

def DispatchPc.isSending : DispatchPc → Bool
  | .sending _ _ _ _ _ => true
  | _ => false

/-! ### Workers are never removed, and only assignment puts a task in flight -/

/-- From `s` to `s'` no worker disappears, and a task that is in flight was so
before, on the same worker and in the same attempt. -/
structure Scheduler.Settles (s s' : Scheduler) : Prop where
  workers : ∀ w, s.workers.contains w = true → s'.workers.contains w = true
  tasks : ∀ t task', s'.tasks.get? t = some task' → task'.status.inFlight = true →
    ∃ task, s.tasks.get? t = some task ∧ task.status.inFlight = true ∧
      task.assignedWorkerId = task'.assignedWorkerId ∧ task.attempt = task'.attempt

namespace Scheduler

theorem Settles.refl (s : Scheduler) : s.Settles s :=
  ⟨fun _ known => known, fun _ task found running => ⟨task, found, running, rfl, rfl⟩⟩

theorem Settles.trans {s s' s'' : Scheduler} (first : s.Settles s') (second : s'.Settles s'') :
    s.Settles s'' := by
  refine ⟨fun w known => second.workers w (first.workers w known), ?_⟩
  intro t task'' found'' running''
  obtain ⟨task', found', running', owner', attempt'⟩ := second.tasks t task'' found'' running''
  obtain ⟨task, found, running, owner, attempt⟩ := first.tasks t task' found' running'
  exact ⟨task, found, running, owner.trans owner', attempt.trans attempt'⟩

theorem settles_setWorkerStatus (s : Scheduler) (w : WorkerId) (status : WorkerStatus) :
    s.Settles (s.setWorkerStatus w status) :=
  ⟨fun v known => by simpa [contains_setStatus] using known, (Settles.refl s).tasks⟩

theorem settles_released (s : Scheduler) (w : WorkerId) : s.Settles (s.released w) := by
  unfold released
  split
  · exact .refl s
  · exact settles_setWorkerStatus s w .idle

theorem settles_setTaskStatus {s : Scheduler} {t : TaskId} {status : TaskStatus}
    (within : status.inFlight = true →
      ∀ task, s.tasks.get? t = some task → task.status.inFlight = true) :
    s.Settles (s.setTaskStatus t status) := by
  refine ⟨fun _ known => known, ?_⟩
  intro u task' found running
  rw [get?_setTaskStatus] at found
  split at found
  · rename_i same
    subst same
    obtain ⟨task, before, rfl⟩ := Option.map_eq_some_iff.mp found
    exact ⟨task, before, within running task before, rfl, rfl⟩
  · exact ⟨task', found, running, rfl, rfl⟩

theorem settles_condemned (s : Scheduler) (w : WorkerId) : s.Settles (s.condemned w) := by
  refine ⟨fun v known => by simpa [contains_setStatus] using known, ?_⟩
  intro t task' found running
  rw [get?_condemned] at found
  obtain ⟨task, before, rfl⟩ := Option.map_eq_some_iff.mp found
  have kept : task.requeued w = task := if_neg (kept_of_inFlight running)
  rw [kept] at running ⊢
  exact ⟨task, before, running, rfl, rfl⟩

theorem settles_condemnStale (s : Scheduler) (timeout now : Time) :
    s.Settles (s.condemnStale timeout now).2 := by
  constructor
  · intro w known
    rw [condemnStale_workers]
    simpa [Dict.contains, WorkerManager.get?_staleWorkers] using known
  · intro t task' found running
    rw [get?_condemnStale] at found
    obtain ⟨task, before, rfl⟩ := Option.map_eq_some_iff.mp found
    have kept := kept_of_inFlight running
    rw [if_neg kept] at running ⊢
    exact ⟨task, before, running, rfl, rfl⟩

end Scheduler

/-- A handled request only adds or updates worker records. -/
theorem Handled.workers_kept {ws ws' : WorkerManager} {request response : Message} {now : Time}
    (handled : Handled ws request now response ws') (w : WorkerId) (known : ws.contains w = true) :
    ws'.contains w = true := by
  cases handled with
  | registered granted _ =>
    obtain ⟨worker, _, _, rfl, _⟩ := grantedRegistration_some granted
    simp only [Dict.contains, Dict.get?_insert] at known ⊢
    split <;> simp [known]
  | unchanged _ _ => exact known
  | beat _ _ _ _ =>
    simp only [Dict.contains, Dict.get?_modify] at known ⊢
    split <;> simp [known]
  | drained _ _ _ _ _ => simpa [Scheduler.contains_setStatus] using known

namespace Master
variable {m m' : Master} {d : DispatchId} {t : TaskId} {w : WorkerId} {attempt : Nat} {response : Message}
  {a : Action} {l : LinkId} {reply : Reply} {dispatch : Dispatch} {link : Link}

@[simp] theorem recordIfTerminal_scheduler (m : Master) (t : TaskId) (response : Message) :
    (m.recordIfTerminal t response).scheduler = m.scheduler := by
  unfold recordIfTerminal
  split
  · split <;> rfl
  · rfl

@[simp] theorem recordIfTerminal_links (m : Master) (t : TaskId) (response : Message) :
    (m.recordIfTerminal t response).links = m.links := by
  unfold recordIfTerminal
  split
  · split <;> rfl
  · rfl

@[simp] theorem recordIfTerminal_dispatches (m : Master) (t : TaskId) (response : Message) :
    (m.recordIfTerminal t response).dispatches = m.dispatches := by
  unfold recordIfTerminal
  split
  · split <;> rfl
  · rfl

theorem finishDispatch_dispatches (m : Master) (d : DispatchId) (t : TaskId) (response : Message) :
    (m.finishDispatch d t response).dispatches = (m.setDispatch d (.returned response)).dispatches := by
  simp only [finishDispatch, Master.setDispatch, recordIfTerminal_dispatches]

theorem closeIfDraining_dispatches (m : Master) (d : DispatchId) (t : TaskId) (w : WorkerId) (attempt : Nat)
    (response : Message) : ∃ pc, (pc = .closing w attempt response ∨ pc = .returned response) ∧
      (m.closeIfDraining d t w attempt response).dispatches = (m.setDispatch d pc).dispatches := by
  unfold closeIfDraining
  split
  · split
    · exact ⟨_, .inl rfl, rfl⟩
    · exact ⟨_, .inr rfl, finishDispatch_dispatches m d t response⟩
  · exact ⟨_, .inr rfl, finishDispatch_dispatches m d t response⟩

@[simp] theorem finishDispatch_scheduler (m : Master) (d : DispatchId) (t : TaskId) (response : Message) :
    (m.finishDispatch d t response).scheduler = m.scheduler :=
  recordIfTerminal_scheduler m t response

@[simp] theorem closeIfDraining_scheduler (m : Master) (d : DispatchId) (t : TaskId) (w : WorkerId)
    (attempt : Nat) (response : Message) :
    (m.closeIfDraining d t w attempt response).scheduler = m.scheduler := by
  unfold closeIfDraining
  split
  · split
    · rfl
    · simp
  · simp

@[simp] theorem install_scheduler (m : Master) (l : LinkId) (w : WorkerId) :
    (m.install l w).scheduler = m.scheduler := by
  simp only [install]
  split
  · split <;> rfl
  · rfl

@[simp] theorem cleanup_tasks (m : Master) (l : LinkId) (link : Link) :
    (m.cleanup l link).tasks = m.tasks := by
  simp only [cleanup]
  split
  · split
    · simp only [failPending, modifyLink, retire]
      split <;> rfl
    · rfl
  · rfl

theorem install_dispatches (m : Master) (l : LinkId) (w : WorkerId) :
    (m.install l w).dispatches = m.dispatches := by
  unfold install
  split
  · split <;> rfl
  · rfl

theorem cleanup_dispatches (m : Master) (l : LinkId) (link : Link) :
    (m.cleanup l link).dispatches = (m.failPending link "Worker connection closed").dispatches := by
  simp only [cleanup]
  split
  · split <;> rfl
  · rfl

theorem install_history (m : Master) (l : LinkId) (w : WorkerId) : (m.install l w).history = m.history := by
  unfold install
  split
  · split <;> rfl
  · rfl

theorem cleanup_history (m : Master) (l : LinkId) (link : Link) : (m.cleanup l link).history = m.history := by
  unfold cleanup
  dsimp only [failPending, modifyLink]
  split
  · split <;> rfl
  · rfl

theorem Unreached.settles (outcome : Unreached m d t w attempt response m') :
    m.scheduler.Settles m'.scheduler := by
  cases outcome with
  | late _ => exact .refl _
  | unknown _ _ => exact .refl _
  | condemned _ _ =>
    simp only [setDispatch, recordIfTerminal_scheduler]
    exact Scheduler.settles_condemned m.scheduler w

theorem Settled.settles (outcome : Settled m d t w attempt response m') :
    m.scheduler.Settles m'.scheduler := by
  cases outcome with
  | late _ => exact .refl _
  | malformed => exact .refl _
  | unknown status _ _ ended =>
    refine Scheduler.settles_setTaskStatus (fun running => ?_)
    cases status <;> simp_all [TaskStatus.terminal, TaskStatus.inFlight]
  | settled _ _ =>
    simp only [closeIfDraining_scheduler]
    refine .trans (Scheduler.settles_setTaskStatus ?_) (Scheduler.settles_released _ w)
    intro running
    split at running <;> cases running

theorem settles_startedTask {task : Task} (found : m.tasks.get? t = some task) (assigned : task.status = .assigned) :
    m.scheduler.Settles (m.startedTask t).scheduler := by
  refine Scheduler.settles_setTaskStatus (fun _ other before => ?_)
  obtain rfl : task = other := Option.some.inj (found.symm.trans before)
  rw [assigned]
  rfl

theorem settles_cleanup (m : Master) (l : LinkId) (link : Link) :
    m.scheduler.Settles (m.cleanup l link).scheduler := by
  simp only [cleanup]
  split
  · split
    · simp only [failPending, modifyLink, retire]
      split
      · exact Scheduler.settles_setWorkerStatus _ _ _
      · exact .refl _
    · exact .refl _
  · exact .refl _

theorem Micro.settles {mid : Master} (move : Micro m a mid) :
    m.scheduler.Settles mid.scheduler := by
  cases move with
  | submit absent =>
    refine ⟨fun _ known => known, ?_⟩
    intro u task' found running
    simp only [submittedTask, Dict.get?_insert] at found
    split at found
    · cases found
      cases running
    · exact ⟨task', found, running, rfl, rfl⟩
  | cleanup _ _ _ _ => exact settles_cleanup m _ _
  | handle _ _ _ handled =>
    exact ⟨(handleRequest_handled handled).workers_kept, (Scheduler.Settles.refl _).tasks⟩
  | install _ _ => simpa using Scheduler.Settles.refl m.scheduler
  | orphan _ found assigned _ => exact settles_startedTask found assigned
  | unreached _ found assigned _ _ =>
    exact (settles_startedTask found assigned).trans (unreachable_outcome _ _ _ _ _ _).settles
  | unencodable _ found assigned _ _ _ =>
    exact (settles_startedTask found assigned).trans
      (unreachable_outcome (popPending (startedTask m _) _ _ _) _ _ _ _ _).settles
  | overflow _ found assigned _ _ _ => exact settles_startedTask found assigned
  | write _ found assigned _ _ => exact settles_startedTask found assigned
  | sendLost _ _ _ => exact (unreachable_outcome (popPending _ _ _ _) _ _ _ _ _).settles
  | replyLost _ => exact (unreachable_outcome (popPending _ _ _ _) _ _ _ _ _).settles
  | replied _ => exact (handleReply_outcome (popPending _ _ _ _) _ _ _ _ _).settles
  | finish _ => simpa using Scheduler.Settles.refl m.scheduler
  | stale _ => exact Scheduler.settles_condemnStale _ _ _
  | skip | accept | lose | resolve | handler | startRaises | drained | abort | abandon | clear =>
    exact .refl _

def Owned (m : Master) : Prop :=
  ∀ t task, m.tasks.get? t = some task → task.status.inFlight = true →
    ∃ w, task.assignedWorkerId = some w ∧ m.workers.contains w = true

theorem Owned.of_settles (owned : m.Owned) (settles : m.scheduler.Settles m'.scheduler) :
    m'.Owned := by
  intro t task' found' running'
  obtain ⟨task, found, running, owner, _⟩ := settles.tasks t task' found' running'
  obtain ⟨w, mine, known⟩ := owned t task found running
  exact ⟨w, owner.symm.trans mine, settles.workers w known⟩

theorem Owned.loop (owned : m.Owned) (loop : Loop m m') : m'.Owned := by
  cases loop with
  | @grant t w task worker _ _ known _ =>
    intro u task' found' running'
    have kept : ∀ v, m.workers.contains v = true → (m.scheduler.grant t w).workers.contains v = true := by
      intro v before
      simpa [Scheduler.contains_setStatus] using before
    rw [tasks, Scheduler.get?_grant] at found'
    split at found'
    · obtain ⟨before, _, rfl⟩ := Option.map_eq_some_iff.mp found'
      exact ⟨w, rfl, kept w (by simp [Dict.contains, known])⟩
    · obtain ⟨v, owner, before⟩ := owned u task' found' running'
      exact ⟨v, owner, kept v before⟩
  | spawn _ => exact owned
  | loops _ _ _ => exact owned

/-! ### Futures and suspended sends -/

structure Wired (m : Master) : Prop where
  pended : ∀ (l : LinkId) (link : Link) (r : String) (d : DispatchId), m.links[l]? = some link →
    link.pending.get? r = some d → ∃ t w attempt drained reply,
      m.dispatches[d]? = some ⟨t, .sending l w attempt drained reply⟩ ∧ r = attemptRequestId t attempt
  replies : ∀ (d : DispatchId) t l w attempt drained response,
    m.dispatches[d]? = some ⟨t, .sending l w attempt drained (.message response)⟩ →
      response.requestId = attemptRequestId t attempt
  failed : ∀ (d : DispatchId) t l w attempt drained reason,
    m.dispatches[d]? = some ⟨t, .sending l w attempt drained (.failed reason)⟩ →
      ∃ link, m.links[l]? = some link ∧ link.lost = true

/-- No link holds a future of dispatch `d`. -/
def Unpended (m : Master) (d : DispatchId) : Prop :=
  ∀ (l : LinkId) (link : Link) (r : String), m.links[l]? = some link → link.pending.get? r ≠ some d

theorem wired_initial : initial.Wired :=
  ⟨fun _ _ _ _ found => by simp [initial] at found, fun _ _ _ _ _ _ _ found => by simp [initial] at found,
    fun _ _ _ _ _ _ _ found => by simp [initial] at found⟩

theorem Wired.congr (wired : m.Wired) (links : m'.links = m.links) (dispatches : m'.dispatches = m.dispatches) :
    m'.Wired := by
  constructor
  · rw [links, dispatches]
    exact wired.pended
  · rw [dispatches]
    exact wired.replies
  · rw [links, dispatches]
    exact wired.failed

/-- A link may lose futures and its transport, and nothing else matters here. -/
theorem Wired.modifyLink (wired : m.Wired) (l : LinkId) {f : Link → Link}
    (pending : ∀ link r d, (f link).pending.get? r = some d → link.pending.get? r = some d)
    (lost : ∀ link, link.lost = true → (f link).lost = true) : (m.modifyLink l f).Wired := by
  constructor
  · intro k link r d found held
    rw [links_modifyLink] at found
    split at found
    · obtain ⟨before, there, rfl⟩ := Option.map_eq_some_iff.mp found
      exact wired.pended k before r d there (pending before r d held)
    · exact wired.pended k link r d found held
  · exact wired.replies
  · intro d t k w attempt drained reason found
    obtain ⟨link, there, gone⟩ := wired.failed d t k w attempt drained reason found
    rw [links_modifyLink]
    split
    · exact ⟨f link, by rw [there]; rfl, lost link gone⟩
    · exact ⟨link, there, gone⟩

theorem Unpended.modifyLink (free : m.Unpended d) (l : LinkId) {f : Link → Link}
    (pending : ∀ link r, (f link).pending.get? r = some d → link.pending.get? r = some d) :
    (m.modifyLink l f).Unpended d := by
  intro k link r found held
  rw [links_modifyLink] at found
  split at found
  · obtain ⟨before, there, rfl⟩ := Option.map_eq_some_iff.mp found
    exact free k before r there (pending before r held)
  · exact free k link r found held

theorem Wired.setHandler (wired : m.Wired) (l : LinkId) (pc : HandlerPc) :
    (m.setHandler l pc).Wired :=
  wired.modifyLink l (fun _ _ _ held => held) (fun _ gone => gone)

theorem Wired.loseLink (wired : m.Wired) (l : LinkId) : (m.loseLink l).Wired :=
  wired.modifyLink l (fun _ _ _ held => held) (fun _ _ => rfl)

theorem Wired.popPending (wired : m.Wired) (l : LinkId) (t : TaskId) (attempt : Nat) :
    (m.popPending l t attempt).Wired := by
  refine wired.modifyLink l ?_ (fun _ gone => gone)
  intro link r d held
  simp only [Dict.get?_erase] at held
  split at held
  · cases held
  · exact held

theorem Wired.unpended_of_spawned (wired : m.Wired) (spawned : m.dispatches[d]? = some ⟨t, .spawned⟩) :
    m.Unpended d := by
  intro l link r found held
  obtain ⟨u, w, attempt, drained, reply, sending, _⟩ := wired.pended l link r d found held
  rw [spawned] at sending
  cases sending

/-- The future a send leaves behind when it is over was its only one. -/
theorem Wired.unpended_of_popped (wired : m.Wired) {drained : Bool}
    (sending : m.dispatches[d]? = some ⟨t, .sending l w attempt drained reply⟩) :
    (m.popPending l t attempt).Unpended d := by
  intro k link r found held
  simp only [Master.popPending, links_modifyLink] at found
  split at found
  · obtain ⟨before, there, rfl⟩ := Option.map_eq_some_iff.mp found
    simp only [Dict.get?_erase] at held
    split at held
    · cases held
    · rename_i _ other
      obtain ⟨u, v, a, _, _, same, named⟩ := wired.pended k before r d there held
      rw [sending] at same
      cases same
      exact other named
  · rename_i elsewhere
    obtain ⟨u, v, a, _, _, same, _⟩ := wired.pended k link r d found held
    rw [sending] at same
    cases same
    exact elsewhere rfl

/-- A dispatch changes where it is suspended. -/
theorem Wired.setDispatch (wired : m.Wired) {pc : DispatchPc} (there : m.dispatches[d]? = some dispatch)
    (pended : ∀ (l : LinkId) (link : Link) (r : String), m.links[l]? = some link →
      link.pending.get? r = some d → ∃ w attempt drained reply, pc = .sending l w attempt drained reply ∧
        r = attemptRequestId dispatch.taskId attempt)
    (replies : ∀ l w attempt drained response, pc = .sending l w attempt drained (.message response) →
      response.requestId = attemptRequestId dispatch.taskId attempt)
    (failed : ∀ l w attempt drained reason, pc = .sending l w attempt drained (.failed reason) →
      ∃ link, m.links[l]? = some link ∧ link.lost = true) : (m.setDispatch d pc).Wired := by
  constructor
  · intro l link r e found held
    rw [dispatches_setDispatch]
    split
    · rename_i same
      subst same
      obtain ⟨w, attempt, drained, reply, rfl, named⟩ := pended l link r found held
      exact ⟨dispatch.taskId, w, attempt, drained, reply, by rw [there]; rfl, named⟩
    · exact wired.pended l link r e found held
  · intro e t l w attempt drained response found
    rw [dispatches_setDispatch] at found
    split at found
    · rename_i same
      subst same
      rw [there, Option.map_some] at found
      cases found
      exact replies l w attempt drained response rfl
    · exact wired.replies e t l w attempt drained response found
  · intro e t l w attempt drained reason found
    rw [dispatches_setDispatch] at found
    split at found
    · rename_i same
      subst same
      rw [there, Option.map_some] at found
      cases found
      exact failed l w attempt drained reason rfl
    · exact wired.failed e t l w attempt drained reason found

theorem Wired.leaveSend (wired : m.Wired) {pc : DispatchPc} (there : m.dispatches[d]? = some dispatch)
    (free : m.Unpended d) (outside : pc.isSending = false) : (m.setDispatch d pc).Wired := by
  refine wired.setDispatch there (fun l link r found held => absurd held (free l link r found)) ?_ ?_
  · rintro l w attempt drained response rfl
    cases outside
  · rintro l w attempt drained reason rfl
    cases outside

theorem Wired.unreached (wired : m.Wired) (there : m.dispatches[d]? = some dispatch) (free : m.Unpended d)
    (outcome : Unreached m d t w attempt response m') : m'.Wired := by
  cases outcome with
  | late _ => exact wired.leaveSend there free rfl
  | unknown _ _ => exact wired.leaveSend there free rfl
  | condemned _ _ =>
    have after : ((m.condemnedWorker w).recordIfTerminal t response).Wired :=
      wired.congr (by simp [condemnedWorker]) (by simp [condemnedWorker])
    have still : ((m.condemnedWorker w).recordIfTerminal t response).dispatches[d]? = some dispatch := by
      simpa [condemnedWorker] using there
    refine after.leaveSend still ?_ rfl
    intro l link r found
    simp only [recordIfTerminal_links, condemnedWorker] at found
    exact free l link r found

theorem Wired.finishDispatch (wired : m.Wired) (t : TaskId) (response : Message)
    (there : m.dispatches[d]? = some dispatch) (free : m.Unpended d) :
    (m.finishDispatch d t response).Wired := by
  have after : (m.recordIfTerminal t response).Wired := wired.congr (by simp) (by simp)
  have still : (m.recordIfTerminal t response).dispatches[d]? = some dispatch := by simpa using there
  refine after.leaveSend still ?_ rfl
  intro l link r found
  rw [recordIfTerminal_links] at found
  exact free l link r found

theorem Wired.closeIfDraining (wired : m.Wired) (t : TaskId) (w : WorkerId) (attempt : Nat) (response : Message)
    (there : m.dispatches[d]? = some dispatch) (free : m.Unpended d) :
    (m.closeIfDraining d t w attempt response).Wired := by
  unfold Master.closeIfDraining
  split
  · split
    · rename_i l _
      exact (wired.loseLink l).leaveSend there (free.modifyLink l (fun _ _ held => held)) rfl
    · exact wired.finishDispatch t response there free
  · exact wired.finishDispatch t response there free

theorem Wired.settled (wired : m.Wired) (there : m.dispatches[d]? = some dispatch) (free : m.Unpended d)
    (outcome : Settled m d t w attempt response m') : m'.Wired := by
  cases outcome with
  | late _ => exact wired.leaveSend there free rfl
  | malformed => exact wired.leaveSend there free rfl
  | unknown status _ _ _ =>
    have after : { m with scheduler := m.scheduler.setTaskStatus t status }.Wired := wired.congr rfl rfl
    exact after.leaveSend there free rfl
  | settled _ _ =>
    have after : (m.finishedTask t w response).Wired := wired.congr rfl rfl
    exact after.closeIfDraining t w attempt response there free

theorem Wired.write (wired : m.Wired) {task : Task} (spawned : m.dispatches[d]? = some ⟨t, .spawned⟩) :
    (m.writeTask d t task w l).Wired := by
  have free := wired.unpended_of_spawned spawned
  constructor
  · intro k link r e found held
    simp only [Master.writeTask, dispatches_setDispatch] at found ⊢
    have links : ((m.modifyLink l (fun link => { link with
        pending := link.pending.insert (attemptRequestId t task.attempt) d })).links[k]?) = some link := found
    rw [links_modifyLink] at links
    -- an entry of `d` is the new one, any other entry was there before
    by_cases own : e = d
    · subst own
      refine ⟨t, w, task.attempt, false, .waiting, ?_⟩
      split at links
      · rename_i same
        obtain ⟨before, there, rfl⟩ := Option.map_eq_some_iff.mp links
        simp only [Dict.get?_insert] at held
        split at held
        · rename_i named
          exact ⟨by simp [Master.modifyLink, spawned, same], named⟩
        · exact absurd held (free k before r there)
      · exact absurd held (free k link r links)
    · simp only [own, if_false]
      split at links
      · obtain ⟨before, there, rfl⟩ := Option.map_eq_some_iff.mp links
        simp only [Dict.get?_insert] at held
        split at held
        · exact absurd (Option.some.inj held).symm own
        · exact wired.pended k before r e there held
      · exact wired.pended k link r e links held
  · intro e u k v attempt drained response found
    simp only [Master.writeTask, dispatches_setDispatch] at found
    split at found
    · obtain ⟨_, _, same⟩ := Option.map_eq_some_iff.mp found
      cases same
    · exact wired.replies e u k v attempt drained response found
  · intro e u k v attempt drained reason found
    simp only [Master.writeTask, dispatches_setDispatch] at found
    split at found
    · obtain ⟨_, _, same⟩ := Option.map_eq_some_iff.mp found
      cases same
    · obtain ⟨link, there, gone⟩ := wired.failed e u k v attempt drained reason found
      have links := links_modifyLink { m with history := m.history ++ [Event.sent t task.attempt l] } l k
        (fun link => { link with pending := link.pending.insert (attemptRequestId t task.attempt) d })
      simp only [there, Option.map_some] at links
      split at links
      · exact ⟨_, links, gone⟩
      · exact ⟨link, links, gone⟩

theorem failReply_sending {reason : String} {drained : Bool}
    (failed : dispatch.failReply reason = ⟨t, .sending l w attempt drained reply⟩) :
    ∃ before, dispatch = ⟨t, .sending l w attempt drained before⟩ ∧
      (before = reply ∨ reply = .failed reason) := by
  unfold Dispatch.failReply at failed
  split at failed
  · rename_i pc
    cases failed
    obtain ⟨u, _⟩ := dispatch
    simp only at pc
    subst pc
    exact ⟨.waiting, rfl, .inr rfl⟩
  · subst failed
    exact ⟨reply, rfl, .inl rfl⟩

/-- The `finally` block fails the futures of a link it closes. -/
theorem Wired.failPending (wired : m.Wired) (reason : String) (there : m.links[l]? = some link) (f : Link → Link)
    (pending : ∀ link, (f link).pending = link.pending) (lost : ∀ link, (f link).lost = true) :
    ((m.failPending link reason).modifyLink l f).Wired := by
  have sends : ∀ (d : DispatchId) (t : TaskId) k w attempt drained reply,
      (m.failPending link reason).dispatches[d]? = some ⟨t, .sending k w attempt drained reply⟩ →
      ∃ before, m.dispatches[d]? = some ⟨t, .sending k w attempt drained before⟩ ∧
        (before = reply ∨ reply = .failed reason ∧ d ∈ link.pending.values) := by
    intro d t k w attempt drained reply found
    rw [dispatches_failPending] at found
    obtain ⟨dispatch, present, same⟩ := Option.map_eq_some_iff.mp found
    split at same
    · rename_i member
      obtain ⟨before, rfl, kept⟩ := failReply_sending same
      exact ⟨before, present, kept.imp_right (fun new => ⟨new, member⟩)⟩
    · exact ⟨reply, by rw [present, same], .inl rfl⟩
  have survives : ∀ (k : LinkId) (old : Link), m.links[k]? = some old → old.lost = true →
      ∃ new, ((m.failPending link reason).modifyLink l f).links[k]? = some new ∧ new.lost = true := by
    intro k old found gone
    rw [links_modifyLink]
    split
    · exact ⟨f old, by simp only [Master.failPending, found, Option.map_some], lost old⟩
    · exact ⟨old, found, gone⟩
  constructor
  · intro k new r d found held
    rw [links_modifyLink] at found
    have before : ∃ old, m.links[k]? = some old ∧ old.pending.get? r = some d := by
      split at found
      · obtain ⟨old, present, rfl⟩ := Option.map_eq_some_iff.mp found
        exact ⟨old, present, by rw [← pending old]; exact held⟩
      · exact ⟨new, found, held⟩
    obtain ⟨old, present, held⟩ := before
    obtain ⟨t, w, attempt, drained, reply, sending, named⟩ := wired.pended k old r d present held
    simp only [Master.modifyLink, dispatches_failPending, sending, Option.map_some]
    by_cases member : d ∈ link.pending.values
    · cases reply <;> simp [member, Dispatch.failReply, named]
    · simp [member, named]
  · intro d t k w attempt drained response found
    obtain ⟨before, present, kept⟩ := sends d t k w attempt drained _ found
    rcases kept with rfl | ⟨new, _⟩
    · exact wired.replies d t k w attempt drained response present
    · cases new
  · intro d t k w attempt drained text found
    obtain ⟨before, present, kept⟩ := sends d t k w attempt drained _ found
    rcases kept with rfl | ⟨_, member⟩
    · obtain ⟨old, linked, gone⟩ := wired.failed d t k w attempt drained text present
      exact survives k old linked gone
    · obtain ⟨⟨r, e⟩, entry, rfl⟩ := List.mem_map.mp member
      obtain ⟨_, _, _, _, _, sending, _⟩ := wired.pended l link r e there (Dict.mem_entries.mp entry)
      rw [present] at sending
      cases sending
      refine ⟨f link, ?_, lost link⟩
      rw [links_modifyLink, if_pos rfl]
      simp only [Master.failPending, there, Option.map_some]

theorem Wired.cleanup (wired : m.Wired) (there : m.links[l]? = some link) : (m.cleanup l link).Wired := by
  simp only [Master.cleanup]
  split
  · split
    · rename_i w _ _
      have left : (m.retire link w).Wired := wired.congr rfl rfl
      exact left.failPending _ there _ (fun _ => rfl) (fun _ => rfl)
    · exact wired.failPending _ there _ (fun _ => rfl) (fun _ => rfl)
  · exact wired.failPending _ there _ (fun _ => rfl) (fun _ => rfl)

theorem Wired.install (wired : m.Wired) (l : LinkId) (w : WorkerId) :
    (m.install l w).Wired := by
  have connected : { m with connections := m.connections.insert w l }.Wired := wired.congr rfl rfl
  have named := connected.modifyLink l (f := fun link => { link with
      workerId := some w, generation := (m.workers.get? w).map Worker.generation })
    (fun _ _ _ held => held) (fun _ gone => gone)
  simp only [Master.install]
  split
  · split
    · exact named.setHandler l _
    · exact (named.loseLink _).setHandler l _
  · exact named.setHandler l _

/-- Only the request_id of a suspended send leads to its dispatch. -/
theorem Wired.request_of_pended (wired : m.Wired) {j k : LinkId} {r : String} {drained : Bool}
    (sending : m.dispatches[d]? = some ⟨t, .sending k w attempt drained reply⟩) (there : m.links[j]? = some link)
    (held : link.pending.get? r = some d) :
    j = k ∧ r = attemptRequestId t attempt := by
  obtain ⟨_, _, _, _, _, same, named⟩ := wired.pended j link r d there held
  rw [sending] at same
  cases same
  exact ⟨rfl, named⟩

theorem Wired.resolve (wired : m.Wired) {k : LinkId} {message : Message} {drained : Bool}
    (there : m.links[l]? = some link) (matched : link.pending.get? message.requestId = some d)
    (sending : m.dispatches[d]? = some ⟨t, .sending k w attempt drained .waiting⟩) :
    (m.setDispatch d (.sending k w attempt drained (.message message))).Wired := by
  refine wired.setDispatch sending ?_ ?_ (fun _ _ _ _ _ same => nomatch same)
  · intro j other r found held
    obtain ⟨rfl, named⟩ := wired.request_of_pended sending found held
    exact ⟨w, attempt, drained, .message message, rfl, named⟩
  · rintro _ _ _ _ _ ⟨⟩
    exact (wired.request_of_pended sending there matched).2

theorem Wired.drained (wired : m.Wired) (sending : m.dispatches[d]? = some ⟨t, .sending l w attempt false reply⟩) :
    (m.setDispatch d (.sending l w attempt true reply)).Wired := by
  refine wired.setDispatch sending ?_ ?_ ?_
  · intro j other r found held
    obtain ⟨rfl, named⟩ := wired.request_of_pended sending found held
    exact ⟨w, attempt, true, reply, rfl, named⟩
  · rintro _ _ _ _ response ⟨⟩
    exact wired.replies d t l w attempt false response sending
  · rintro _ _ _ _ reason ⟨⟩
    exact wired.failed d t l w attempt false reason sending

theorem Wired.unpended_of_closing (wired : m.Wired)
    (closing : m.dispatches[d]? = some ⟨t, .closing w attempt response⟩) : m.Unpended d := by
  intro l link r found held
  obtain ⟨u, v, a, drained, reply, sending, _⟩ := wired.pended l link r d found held
  rw [closing] at sending
  cases sending

/-- A call that has not started has no future, also after the pop of a send that raised. -/
theorem Wired.unpended_of_unsent (wired : m.Wired) (spawned : m.dispatches[d]? = some ⟨t, .spawned⟩) (l : LinkId)
    (attempt : Nat) :
    (m.popPending l t attempt).Unpended d := by
  refine Unpended.modifyLink (wired.unpended_of_spawned spawned) l ?_
  intro link r held
  simp only [Dict.get?_erase] at held
  split at held
  · cases held
  · exact held

theorem Wired.micro {mid : Master} (wired : m.Wired) (move : Micro m a mid) :
    mid.Wired := by
  cases move with
  | skip => exact wired
  | submit _ => exact wired.congr rfl rfl
  | accept =>
    constructor
    · intro l link r d found held
      rw [List.getElem?_append] at found
      split at found
      · exact wired.pended l link r d found held
      · obtain rfl := List.mem_singleton.mp (List.mem_of_getElem? found)
        cases held
    · exact wired.replies
    · intro d t l w attempt drained reason found
      obtain ⟨link, there, gone⟩ := wired.failed d t l w attempt drained reason found
      exact ⟨link, List.getElem?_append_left (List.getElem?_eq_some_iff.mp there).1 ▸ there, gone⟩
  | lose _ => exact wired.loseLink _
  | cleanup _ there _ _ => exact wired.cleanup there
  | resolve there matched sending => exact wired.resolve there matched sending
  | @handle l link message response now ws _ _ _ _ =>
    have heard : Wired { m with
        scheduler := { m.scheduler with workers := ws }
        history := m.history ++ m.registrationEvents l message now } := wired.congr rfl rfl
    exact heard.setHandler l _
  | install _ _ => exact wired.install _ _
  | handler _ _ _ _ _ => exact wired.setHandler _ _
  | startRaises spawned _ => exact wired.leaveSend spawned (wired.unpended_of_spawned spawned) rfl
  | @orphan d t task _ spawned _ _ _ =>
    have started : (m.startedTask t).Wired := wired.congr rfl rfl
    exact started.leaveSend spawned (wired.unpended_of_spawned spawned) rfl
  | @unreached d t task w _ spawned _ _ _ _ =>
    have started : (m.startedTask t).Wired := wired.congr rfl rfl
    exact started.unreached spawned (wired.unpended_of_spawned spawned) (unreachable_outcome _ _ _ _ _ _)
  | @unencodable d t task w l _ reason spawned _ _ _ _ _ =>
    have started : (m.startedTask t).Wired := wired.congr rfl rfl
    exact (started.popPending l t task.attempt).unreached spawned
      (started.unpended_of_unsent spawned l task.attempt) (unreachable_outcome _ _ _ _ _ _)
  | @overflow d t task w l _ spawned _ _ _ _ _ =>
    have started : (m.startedTask t).Wired := wired.congr rfl rfl
    exact (started.popPending l t task.attempt).leaveSend spawned
      (started.unpended_of_unsent spawned l task.attempt) rfl
  | @write d t task w l _ spawned _ _ _ _ =>
    have started : (m.startedTask t).Wired := wired.congr rfl rfl
    exact started.write spawned
  | drained sending => exact wired.drained sending
  | sendLost sending _ _ =>
    exact (wired.popPending _ _ _).unreached sending (wired.unpended_of_popped sending)
      (unreachable_outcome _ _ _ _ _ _)
  | replyLost sending =>
    exact (wired.popPending _ _ _).unreached sending (wired.unpended_of_popped sending)
      (unreachable_outcome _ _ _ _ _ _)
  | replied sending =>
    exact (wired.popPending _ _ _).settled sending (wired.unpended_of_popped sending)
      (handleReply_outcome _ _ _ _ _ _)
  | abort sending =>
    exact (wired.popPending _ _ _).leaveSend sending (wired.unpended_of_popped sending) rfl
  | finish closing => exact wired.finishDispatch _ _ closing (wired.unpended_of_closing closing)
  | abandon closing => exact wired.leaveSend closing (wired.unpended_of_closing closing) rfl
  | stale _ => exact wired.congr rfl rfl
  | clear => exact wired.congr rfl rfl

theorem spawned_lookup {batch : List TaskId} (found : (m.spawn batch).dispatches[d]? = some dispatch) :
    m.dispatches[d]? = some dispatch ∨ dispatch.pc = .spawned ∧ dispatch.taskId ∈ batch := by
  simp only [spawn, List.getElem?_append] at found
  split at found
  · exact .inl found
  · obtain ⟨t, member, rfl⟩ := List.mem_map.mp (List.mem_of_getElem? found)
    exact .inr ⟨rfl, member⟩

theorem spawn_keeps {batch : List TaskId} (found : m.dispatches[d]? = some dispatch) :
    (m.spawn batch).dispatches[d]? = some dispatch := by
  simp only [spawn]
  rw [List.getElem?_append_left (List.getElem?_eq_some_iff.mp found).1]
  exact found

theorem Wired.loop (wired : m.Wired) (loop : Loop m m') : m'.Wired := by
  cases loop with
  | grant _ _ _ _ => exact wired.congr rfl rfl
  | spawn batch =>
    constructor
    · intro l link r d found held
      obtain ⟨t, w, attempt, drained, reply, sending, named⟩ := wired.pended l link r d found held
      exact ⟨t, w, attempt, drained, reply, spawn_keeps sending, named⟩
    · intro d t l w attempt drained response found
      rcases spawned_lookup found with before | ⟨new, _⟩
      · exact wired.replies d t l w attempt drained response before
      · cases new
    · intro d t l w attempt drained reason found
      rcases spawned_lookup found with before | ⟨new, _⟩
      · exact wired.failed d t l w attempt drained reason before
      · cases new
  | loops _ _ _ => exact wired.congr rfl rfl

/-- Both invariants, in every state of every run. -/
structure Base (m : Master) : Prop where
  owned : m.Owned
  wired : m.Wired

theorem base_initial : initial.Base := ⟨fun _ _ found => (nomatch found), wired_initial⟩

theorem Base.step (base : m.Base) (taken : m.step a = some m') : m'.Base := by
  refine step_preserves taken ?_ ?_
  · intro mid move
    exact ⟨base.owned.of_settles move.settles, base.wired.micro move⟩
  · intro s s' loop kept
    exact ⟨kept.owned.loop loop, kept.wired.loop loop⟩

end Master
end DistributedCompute
