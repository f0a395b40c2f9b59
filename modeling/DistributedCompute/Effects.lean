import DistributedCompute.Leases

/-! What the steps of the master do to its scheduler, with what holds when they
do it. Every operation on a task is applied to a task that is in flight on the
worker named, because only the current attempt of a lease gets that far. -/
namespace DistributedCompute
open Py Relation Transition

namespace Scheduler

/-- Task `t` is ASSIGNED to or RUNNING on worker `w`. -/
def Holds (s : Scheduler) (t : TaskId) (w : WorkerId) : Prop :=
  ∃ task, s.tasks.get? t = some task ∧ task.assignedWorkerId = some w ∧ task.status.inFlight = true

/-- `stops` says which DRAINING workers may be declared STOPPED. -/
inductive Effect (stops : Scheduler → WorkerId → Prop) (s : Scheduler) : Scheduler → Prop
  | submit {t : TaskId} {task : Task} : s.tasks.get? t = none → task.status = .pending →
      Effect stops s { s with tasks := s.tasks.insert t task }
  | request {message response : Message} {now : Time} {ws : WorkerManager} :
      Handled s.workers message now response ws → Effect stops s { s with workers := ws }
  | grant {t : TaskId} {w : WorkerId} {task : Task} {worker : Worker} : s.tasks.get? t = some task →
      task.status = .pending → s.workers.get? w = some worker → worker.status = .idle →
      Effect stops s (s.grant t w)
  | start {t : TaskId} {task : Task} : s.tasks.get? t = some task → task.status = .assigned →
      Effect stops s (s.setTaskStatus t .running)
  | finish {t : TaskId} {w : WorkerId} {status : TaskStatus} : s.Holds t w → status.terminal = true →
      Effect stops s ((s.setTaskStatus t status).released w)
  | condemn {t : TaskId} {w : WorkerId} : s.Holds t w → Effect stops s (s.condemned w)
  | stale (timeout now : Time) : Effect stops s (s.condemnStale timeout now).2
  | stop {w : WorkerId} : s.workers.statusOf w = some .draining → stops s w →
      Effect stops s (s.setWorkerStatus w .stopped)

end Scheduler

namespace Master

/-- The handler whose `finally` block the action runs. -/
def ending (m : Master) (a : Action) : Option (LinkId × Link) :=
  a.link?.bind (fun l => (m.links[l]?).bind (fun link =>
    match m.handlerTurn l link a with
    | some .ends => some (l, link)
    | _ => none))

/-- The worker whose current link the action ends. -/
def retiring (m : Master) (a : Action) : Option (Link × WorkerId) :=
  (m.ending a).bind (fun ended => ended.2.workerId.bind (fun w =>
    if m.connections.get? w = some ended.1 then some (ended.2, w) else none))

variable {m m' : Master} {a : Action} {stops : Scheduler → WorkerId → Prop}

theorem ending_of_cleanup {l : LinkId} {link : Link} (named : a.link? = some l) (there : m.links[l]? = some link)
    (turn : m.handlerTurn l link a = some .ends) :
    m.ending a = some (l, link) := by
  simp [ending, named, there, turn]

theorem cleanup_scheduler (m : Master) (l : LinkId) (link : Link) :
    (m.cleanup l link).scheduler = m.scheduler ∨
    ∃ w, link.workerId = some w ∧ m.connections.get? w = some l ∧
      m.workers.statusOf w = some .draining ∧ link.hasPending = false ∧
      (m.cleanup l link).scheduler = m.scheduler.setWorkerStatus w .stopped := by
  simp only [cleanup]
  split
  · rename_i w mine
    split
    · rename_i current
      by_cases draining : m.workers.statusOf w = some .draining ∧ link.hasPending = false
      · right
        refine ⟨w, mine, current, draining.1, draining.2, ?_⟩
        simp only [failPending, modifyLink, retire, draining, and_self, if_true]
      · left
        simp only [failPending, modifyLink, retire, draining, if_false]
    · exact .inl rfl
  · exact .inl rfl

theorem holds_of_isCurrentAttempt {t : TaskId} {d : DispatchId} {w : WorkerId} {attempt : Nat}
    (sound : Lease.Sound (leaseRules t) (m.working t d w attempt)) (current : m.isCurrentAttempt t w attempt = true) :
    m.scheduler.Holds t w := by
  obtain ⟨task, found, owner, _, running⟩ := running_of_isCurrentAttempt sound current
  exact ⟨task, found, owner, by rw [running]; rfl⟩

section Effects
variable {stops : Scheduler → WorkerId → Prop} {m m' : Master} {d : DispatchId} {t : TaskId} {w : WorkerId}
  {attempt : Nat} {response : Message}

theorem Unreached.effect (sound : Lease.Sound (leaseRules t) (m.working t d w attempt))
    (outcome : Unreached m d t w attempt response m') :
    ReflTransGen (Scheduler.Effect stops) m.scheduler m'.scheduler := by
  cases outcome with
  | late _ => exact .refl
  | unknown _ _ => exact .refl
  | condemned current _ =>
    simp only [setDispatch, recordIfTerminal_scheduler]
    exact .single (.condemn (holds_of_isCurrentAttempt sound current))

theorem Settled.effect (owned : m.Owned) (sound : Lease.Sound (leaseRules t) (m.working t d w attempt))
    (outcome : Settled m d t w attempt response m') :
    ReflTransGen (Scheduler.Effect stops) m.scheduler m'.scheduler := by
  cases outcome with
  | late _ => exact .refl
  | malformed => exact .refl
  | unknown status current unknown _ =>
    obtain ⟨task, found, owner, inFlight⟩ := holds_of_isCurrentAttempt sound current
    obtain ⟨v, mine, known⟩ := owned t task found inFlight
    rw [owner] at mine
    cases mine
    rw [unknown] at known
    cases known
  | settled current _ =>
    rw [closeIfDraining_scheduler]
    refine .single (.finish (holds_of_isCurrentAttempt sound current) ?_)
    split <;> rfl

end Effects

theorem Micro.effects {mid : Master} (fenced : m.Fenced) (move : Micro m a mid)
    (stop : ∀ link w, m.retiring a = some (link, w) → m.workers.statusOf w = some .draining →
      link.hasPending = false → stops m.scheduler w) :
    ReflTransGen (Scheduler.Effect stops) m.scheduler mid.scheduler := by
  cases move with
  | submit absent => exact .single (.submit absent rfl)
  | @cleanup _ l link named there turn _ =>
    rcases cleanup_scheduler m l link with same | ⟨w, mine, current, draining, free, stopped⟩
    · rw [same]
    · rw [stopped]
      refine .single (.stop draining (stop link w ?_ draining free))
      simp [retiring, ending_of_cleanup named there turn, mine, current]
  | handle _ _ _ handled => exact .single (.request (handleRequest_handled handled))
  | install _ _ => rw [install_scheduler]
  | orphan _ found assigned _ => exact .single (.start found assigned)
  | @unreached d t task w _ spawned found assigned owner _ =>
    have claims : Lease.Move (leaseRules t) True (m.lease t) _ := lease_claimed spawned found assigned owner
    exact ReflTransGen.head (.start found assigned)
      (Unreached.effect ((fenced.leases t).step claims) (unreachable_outcome _ _ _ _ _ _))
  | @unencodable d t task w l _ reason spawned found assigned owner _ _ =>
    have claims : Lease.Move (leaseRules t) True (m.lease t) _ := lease_claimed spawned found assigned owner
    exact ReflTransGen.head (.start found assigned)
      (Unreached.effect (m := (m.startedTask t).popPending l t task.attempt)
        ((fenced.leases t).step claims) (unreachable_outcome _ _ _ _ _ _))
  | overflow _ found assigned _ _ _ => exact .single (.start found assigned)
  | write _ found assigned _ _ => exact .single (.start found assigned)
  | @sendLost d t l link w attempt reply reason sending _ _ =>
    have sound := fenced.working sending
    exact Unreached.effect (m := m.popPending l t attempt) sound (unreachable_outcome _ _ _ _ _ _)
  | @replyLost d t l w attempt reason sending =>
    have sound := fenced.working sending
    exact Unreached.effect (m := m.popPending l t attempt) sound (unreachable_outcome _ _ _ _ _ _)
  | @replied d t l w attempt response sending =>
    have sound := fenced.working sending
    exact Settled.effect (m := m.popPending l t attempt) fenced.base.owned sound
      (handleReply_outcome _ _ _ _ _ _)
  | finish _ => rw [finishDispatch_scheduler]
  | stale _ => exact .single (.stale heartbeatTimeout _)
  | skip | accept | lose | resolve | handler | startRaises | drained | abort | abandon | clear => exact .refl

theorem Loop.effects (loop : Loop m m') :
    ReflTransGen (Scheduler.Effect stops) m.scheduler m'.scheduler := by
  cases loop with
  | grant found pending known idle => exact .single (.grant found pending known idle)
  | spawn _ => exact .refl
  | loops _ _ _ => exact .refl

theorem step_effects (fenced : m.Fenced) (taken : m.step a = some m')
    (stop : ∀ link w, m.retiring a = some (link, w) → m.workers.statusOf w = some .draining →
      link.hasPending = false → stops m.scheduler w) :
    ReflTransGen (Scheduler.Effect stops) m.scheduler m'.scheduler := by
  obtain ⟨mid, move, loops⟩ := step_split taken
  refine (move.effects fenced stop).trans ?_
  clear taken
  induction loops with
  | refl => exact .refl
  | tail _ loop ih => exact ih.trans loop.effects

/-- The invariant rule for the scheduler: true at the start and kept by every
effect, `stops` being granted by the condition on the steps. -/
theorem scheduler_invariant {ok : Master → Action → Prop} {I : Scheduler → Prop} (run : Steps step ok initial m)
    (start : I ⟨∅, ∅⟩) (stop : ∀ n a link w, ok n a → n.retiring a = some (link, w) →
      n.workers.statusOf w = some .draining → link.hasPending = false → stops n.scheduler w)
    (kept : ∀ s s', I s → s.Effect stops s' → I s') : I m.scheduler := by
  refine run.invariant_with (I := fun n => I n.scheduler) (fun n before => fenced_of_run before) start ?_
  intro n a n' fenced holds good taken
  have effects := step_effects fenced taken (fun link w => stop n a link w good)
  generalize n'.scheduler = s' at effects
  induction effects with
  | refl => exact holds
  | tail _ effect ih => exact kept _ _ ih effect

/-! ### What a move does to the registry of workers -/

inductive Roster (m : Master) (a : Action) : WorkerManager → Prop
  | same : Roster m a m.workers
  | request {l : LinkId} {message response : Message} {now : Time} {ws : WorkerManager} :
      a = .receive l message now → Handled m.workers message now response ws → Roster m a ws
  | stop {link : Link} {w : WorkerId} : m.retiring a = some (link, w) →
      m.workers.statusOf w = some .draining → link.hasPending = false →
      Roster m a (m.workers.setStatus w .stopped)
  | release {t : TaskId} {w : WorkerId} : m.scheduler.Holds t w → m.workers.statusOf w ≠ some .draining →
      Roster m a (m.workers.setStatus w .idle)
  | condemn {t : TaskId} {w : WorkerId} : m.scheduler.Holds t w → (w, some t) ∈ m.requeueCalls a →
      Roster m a (m.workers.setStatus w .failed)
  | stale {i : Nat} {now : Time} : a = .monitorTick i now →
      Roster m a (m.workers.getStaleWorkers heartbeatTimeout now).2

section Rosters
variable {m n n' : Master} {a : Action} {d : DispatchId} {t : TaskId} {w : WorkerId} {attempt : Nat}
  {response : Message}

theorem Unreached.roster (workers : n.workers = m.workers)
    (held : n.isCurrentAttempt t w attempt = true → m.scheduler.Holds t w)
    (called : n.isCurrentAttempt t w attempt = true → (w, some t) ∈ m.requeueCalls a)
    (outcome : Unreached n d t w attempt response n') : Roster m a n'.workers := by
  cases outcome with
  | late _ | unknown _ _ => exact workers ▸ .same
  | condemned current _ =>
    have after : (((n.condemnedWorker w).recordIfTerminal t response).setDispatch d (.returned response)).workers =
        n.workers.setStatus w .failed := by
      simp [Master.workers, setDispatch, condemnedWorker]
    rw [after, workers]
    exact .condemn (held current) (called current)

theorem Settled.roster (workers : n.workers = m.workers)
    (held : n.isCurrentAttempt t w attempt = true → m.scheduler.Holds t w)
    (outcome : Settled n d t w attempt response n') : Roster m a n'.workers := by
  cases outcome with
  | late _ | malformed => exact workers ▸ .same
  | unknown _ _ _ _ => exact workers ▸ .same
  | settled current _ =>
    have after : ((n.finishedTask t w response).closeIfDraining d t w attempt response).workers =
        if n.workers.statusOf w = some .draining then n.workers else n.workers.setStatus w .idle := by
      rw [Master.workers, closeIfDraining_scheduler, finishedTask, Scheduler.released,
        Scheduler.setTaskStatus_workers]
      split <;> rfl
    rw [after, workers]
    split
    · exact .same
    · rename_i free
      exact .release (held current) free

end Rosters

theorem Micro.roster {mid : Master} (fenced : m.Fenced) (move : Micro m a mid) :
    Roster m a mid.workers := by
  cases move with
  | @cleanup _ l link named there turn _ =>
    rcases cleanup_scheduler m l link with same | ⟨w, mine, current, draining, free, stopped⟩
    · rw [Master.workers, same]
      exact .same
    · rw [Master.workers, stopped]
      refine @Roster.stop _ _ link _ ?_ draining free
      simp [retiring, ending_of_cleanup named there turn, mine, current]
  | handle _ _ _ handled => exact .request rfl (handleRequest_handled handled)
  | install _ _ =>
    rw [Master.workers, install_scheduler]
    exact .same
  | @unreached d t task w depth spawned found assigned owner absent =>
    have called : (w, some t) ∈ m.requeueCalls (.startDispatch d depth) :=
      call_of_unsendable spawned found assigned owner (by simp [unsendable, absent])
    refine Unreached.roster (n := m.startedTask t) rfl (fun _ => ⟨task, found, owner, ?_⟩) (fun _ => called)
      (unreachable_outcome _ _ _ _ _ _)
    rw [assigned]
    rfl
  | @unencodable d t task w l depth reason spawned found assigned owner _ failure =>
    have called : (w, some t) ∈ m.requeueCalls (.startDispatch d depth) :=
      call_of_unsendable spawned found assigned owner (by simp [unsendable, refused, failure])
    refine Unreached.roster (n := (m.startedTask t).popPending l t task.attempt) rfl
      (fun _ => ⟨task, found, owner, ?_⟩) (fun _ => called) (unreachable_outcome _ _ _ _ _ _)
    rw [assigned]
    rfl
  | @sendLost d t l link w attempt reply reason sending _ _ =>
    have sound := fenced.working sending
    exact Unreached.roster (n := m.popPending l t attempt) rfl (holds_of_isCurrentAttempt sound)
      (call_of_sendLost reason sending) (unreachable_outcome _ _ _ _ _ _)
  | @replyLost d t l w attempt reason sending =>
    have sound := fenced.working sending
    exact Unreached.roster (n := m.popPending l t attempt) rfl (holds_of_isCurrentAttempt sound)
      (call_of_replyLost sending) (unreachable_outcome _ _ _ _ _ _)
  | @replied d t l w attempt response sending =>
    have sound := fenced.working sending
    exact Settled.roster (n := m.popPending l t attempt) rfl (holds_of_isCurrentAttempt sound)
      (handleReply_outcome _ _ _ _ _ _)
  | finish _ =>
    rw [Master.workers, finishDispatch_scheduler]
    exact .same
  | stale _ =>
    rw [Master.workers, condemnedStale, Scheduler.condemnStale_workers]
    exact .stale rfl
  | submit | orphan | overflow | write => exact .same
  | skip | accept | lose | resolve | handler | startRaises | drained | abort | abandon | clear => exact .same

/-- Assignment makes an IDLE worker BUSY and leaves every other status alone. -/
theorem Loop.statusOf (loop : Loop m m') (w : WorkerId) :
    m'.workers.statusOf w = m.workers.statusOf w ∨
      (m.workers.statusOf w = some .idle ∧ m'.workers.statusOf w = some .busy) := by
  cases loop with
  | @grant t v task worker _ _ known idle =>
    rw [Master.workers, Scheduler.grant_workers, WorkerManager.statusOf_setStatus]
    by_cases same : w = v
    · subst same
      have status : m.workers.statusOf w = some .idle := by
        have known : m.workers.get? w = some worker := known
        simp [WorkerManager.statusOf, known, idle]
      have inScheduler : m.scheduler.workers.statusOf w = some .idle := status
      exact .inr ⟨status, by simp [inScheduler]⟩
    · exact .inl (if_neg same)
  | spawn _ | loops _ _ _ => exact .inl rfl

end Master
end DistributedCompute
