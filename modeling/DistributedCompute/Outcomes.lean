import DistributedCompute.Leases

/-! What the fenced leases say about the responses of the master: a task has one
terminal outcome, which its winning attempt records; which runs leave no
terminal task without a response; and how often a task is sent. -/
namespace DistributedCompute
open Py Relation Transition

/-- The call is suspended inside `dispatch_assigned_task`. -/
def DispatchPc.suspended : DispatchPc → Bool
  | .sending _ _ _ _ _ | .closing _ _ _ => true
  | _ => false

/-- A REGISTER request as a worker sends it. -/
def registerRequest (w : WorkerId) : Message :=
  ⟨.register, "req-1", [("worker_id", .str w), ("host", .str "127.0.0.1"), ("port", .int 6001)]⟩

/-- A TASK_RESULT as a worker sends it. -/
def taskResult (t : TaskId) (attempt : Nat) (status : String) : Message :=
  ⟨.taskResult, attemptRequestId t attempt,
    [("task_id", .str t), ("attempt", .int attempt), ("status", .str status)]⟩

namespace Master

/-! ### The registry of responses is the last write -/

/-- `_task_responses` holds the last response recorded for each task. -/
def Logged (m : Master) : Prop := ∀ t, m.responses.get? t = (m.recordedResponses t).getLast?

variable {m m' mid : Master} {d : DispatchId} {t : TaskId} {w : WorkerId} {attempt : Nat} {response : Message}
  {a : Action} {ok : Master → Action → Prop} {task : Task}

theorem Logged.congr (logged : m.Logged) (responses : m'.responses = m.responses)
    (recorded : ∀ t, m'.recordedResponses t = m.recordedResponses t) : m'.Logged := by
  intro t
  rw [responses, recorded, logged t]

theorem Logged.recordTaskResponse (logged : m.Logged) (t : TaskId) (response : Message) :
    (m.recordTaskResponse t response).Logged := by
  intro u
  have written : (m.recordTaskResponse t response).recordedResponses u =
      m.recordedResponses u ++ (if t = u then [response] else []) := by
    by_cases same : t = u <;>
      simp [recordedResponses, Master.recordTaskResponse, List.filterMap_append, Event.recordedOf, same]
  have stored : (m.recordTaskResponse t response).responses.get? u =
      if u = t then some response else m.responses.get? u := Dict.get?_insert m.responses t u response
  rw [written, stored]
  by_cases same : u = t
  · subst same
    simp
  · simp [same, Ne.symm same, logged u]

theorem Logged.recordIfTerminal (logged : m.Logged) (t : TaskId) (response : Message) :
    (m.recordIfTerminal t response).Logged := by
  unfold Master.recordIfTerminal
  split
  · split
    · exact logged.recordTaskResponse t response
    · exact logged
  · exact logged

theorem Logged.unreached (logged : m.Logged) (outcome : Unreached m d t w attempt response m') : m'.Logged := by
  cases outcome with
  | late _ => exact logged
  | unknown _ _ => exact logged
  | condemned _ _ =>
    have condemned : (m.condemnedWorker w).Logged := logged
    exact condemned.recordIfTerminal t response

theorem Logged.closeIfDraining (logged : m.Logged) (d : DispatchId) (t : TaskId) (w : WorkerId) (attempt : Nat)
    (response : Message) :
    (m.closeIfDraining d t w attempt response).Logged := by
  unfold Master.closeIfDraining
  split
  · split
    · exact logged
    · exact logged.recordIfTerminal t response
  · exact logged.recordIfTerminal t response

theorem Logged.settled (logged : m.Logged) (outcome : Settled m d t w attempt response m') : m'.Logged := by
  cases outcome with
  | late _ => exact logged
  | malformed => exact logged
  | unknown _ _ _ _ => exact logged
  | settled _ _ =>
    have finished : (m.finishedTask t w response).Logged := logged
    exact finished.closeIfDraining d t w attempt response

theorem Logged.micro (logged : m.Logged) (move : Micro m a mid) :
    mid.Logged := by
  cases move with
  | @cleanup _ l link _ _ _ _ =>
    refine logged.congr ?_ (fun t => congrArg Lease.State.published (lease_cleanup m l link t))
    simp only [Master.cleanup]
    split
    · split <;> rfl
    · rfl
  | handle _ _ _ _ =>
    exact logged.congr rfl (fun t => congrArg Lease.State.published (lease_answered m _ _ _ _ _ t))
  | @install l _ w _ _ =>
    refine logged.congr ?_ (fun t => congrArg Lease.State.published (lease_install m l w t))
    simp only [Master.install]
    split
    · split <;> rfl
    · rfl
  | unreached _ _ _ _ _ =>
    exact Logged.unreached (m := m.startedTask _) logged (unreachable_outcome _ _ _ _ _ _)
  | unencodable _ _ _ _ _ _ =>
    exact Logged.unreached (m := (m.startedTask _).popPending _ _ _) logged (unreachable_outcome _ _ _ _ _ _)
  | write _ _ _ _ _ =>
    refine logged.congr rfl (fun t => ?_)
    simp [recordedResponses, writeTask, startedTask, Master.setDispatch, modifyLink, List.filterMap_append,
      Event.recordedOf]
  | sendLost _ _ _ =>
    exact Logged.unreached (m := m.popPending _ _ _) logged (unreachable_outcome _ _ _ _ _ _)
  | replyLost _ => exact Logged.unreached (m := m.popPending _ _ _) logged (unreachable_outcome _ _ _ _ _ _)
  | replied _ => exact Logged.settled (m := m.popPending _ _ _) logged (handleReply_outcome _ _ _ _ _ _)
  | finish _ => exact logged.recordIfTerminal _ _
  | skip | submit | accept | lose | resolve | handler | startRaises | orphan | overflow | drained | abort | abandon
  | stale | clear => exact logged

theorem Logged.loop (logged : m.Logged) (loop : Loop m m') : m'.Logged := by
  cases loop with
  | grant _ _ _ _ => exact logged
  | spawn _ => exact logged
  | loops _ _ _ => exact logged

theorem logged_of_run (run : Steps step ok initial m) :
    m.Logged := by
  refine run.invariant (fun t => rfl) ?_
  intro n a n' logged _ taken
  exact step_preserves taken (fun mid move => logged.micro move) (fun _ _ loop kept => kept.loop loop)

/-! ### One outcome for each task -/

theorem published_iff (run : Steps step ok initial m) :
    response ∈ m.recordedResponses t ↔ m.responses.get? t = some response := by
  have once : (m.recordedResponses t).length ≤ 1 := ((fenced_of_run run).leases t).once
  rw [logged_of_run run t]
  generalize m.recordedResponses t = writes at once
  rcases writes with _ | ⟨first, _ | ⟨second, rest⟩⟩
  · simp
  · simp [eq_comm]
  · simp at once

theorem task_of_final (ended : (m.lease t).status.final = true) :
    ∃ task, m.tasks.get? t = some task ∧ task.status.terminal = true := by
  rcases found : m.tasks.get? t with _ | task
  · simp [lease, found, Lease.Status.final] at ended
  · rw [(lease_of_task found).1, lease_final] at ended
    exact ⟨task, rfl, ended⟩

theorem lease_succeeded : task.status.lease = .succeeded ↔ task.status = .completed := by
  cases task.status <;> simp [TaskStatus.lease]

/-- A recorded response agrees with how its task ended. -/
theorem recorded_agrees (fenced : m.Fenced) (recorded : response ∈ m.recordedResponses t) :
    ∃ task, m.tasks.get? t = some task ∧ task.status.terminal = true ∧
      response.requestId = attemptRequestId t task.attempt ∧
      (task.status = .completed ↔ response.isSuccess = true) := by
  obtain ⟨ended, belongs, agrees⟩ := (fenced.leases t).published response recorded
  obtain ⟨task, found, terminal⟩ := task_of_final ended
  obtain ⟨status, _, attempt⟩ := lease_of_task found
  rw [attempt] at belongs
  rw [status, lease_succeeded] at agrees
  exact ⟨task, found, terminal, belongs, agrees⟩

/-- Lease moves leave a terminal task as it is, and do not send it again. -/
theorem terminal_of_leases {lossy : Prop} (fenced : m.Fenced)
    (moves : ReflTransGen (Lease.Move (leaseRules t) lossy) (m.lease t) (m'.lease t))
    (found : m.tasks.get? t = some task) (ended : task.status.terminal = true) :
    (∃ task', m'.tasks.get? t = some task' ∧ task'.status = task.status ∧
      task'.assignedWorkerId = task.assignedWorkerId ∧ task'.attempt = task.attempt) ∧
    m'.sentAttempts t = m.sentAttempts t := by
  obtain ⟨status, owner, attempt⟩ := lease_of_task found
  have final : (m.lease t).status.final = true := by rw [status, lease_final, ended]
  obtain ⟨sameStatus, sameOwner, sameAttempt, sameSent⟩ := (fenced.leases t).end_kept_run moves final
  obtain ⟨task', found', _⟩ := task_of_final (m := m') (by rw [sameStatus, final])
  obtain ⟨status', owner', attempt'⟩ := lease_of_task found'
  refine ⟨⟨task', found', ?_, ?_, ?_⟩, sameSent⟩
  · have equal : task'.status.lease = task.status.lease := by rw [← status', sameStatus, status]
    cases h : task.status <;> cases h' : task'.status <;> simp [h, h', TaskStatus.lease] at equal ⊢
  · rw [← owner', sameOwner, owner]
  · rw [← attempt', sameAttempt, attempt]

theorem terminal_kept (fenced : m.Fenced) (run : Steps step ok m m') (found : m.tasks.get? t = some task)
    (ended : task.status.terminal = true) :
    (∃ task', m'.tasks.get? t = some task' ∧ task'.status = task.status ∧
      task'.assignedWorkerId = task.assignedWorkerId ∧ task'.attempt = task.attempt) ∧
    m'.sentAttempts t = m.sentAttempts t :=
  terminal_of_leases fenced (run_leases fenced run t (fun _ _ _ _ => trivial)) found ended

/-- The step belongs to a connection handler, or to a call for `t` whose
captured worker and attempt are no longer the task's. -/
def Outdated (m : Master) (a : Action) (t : TaskId) : Prop :=
  a.link?.isSome = true ∨ ∃ d l w attempt drained reply, a.dispatch? = some d ∧
    m.dispatches[d]? = some ⟨t, .sending l w attempt drained reply⟩ ∧ m.isCurrentAttempt t w attempt = false

theorem handler_keeps (handler : a.link?.isSome = true) (move : Micro m a mid) :
    mid.tasks = m.tasks ∧ mid.responses = m.responses := by
  cases move with
  | @cleanup _ l link _ _ _ _ =>
    refine ⟨cleanup_tasks m l link, ?_⟩
    simp only [cleanup]
    split
    · split <;> rfl
    · rfl
  | @install l _ w _ _ =>
    refine ⟨congrArg Scheduler.tasks (install_scheduler m l w), ?_⟩
    simp only [install]
    split
    · split <;> rfl
    · rfl
  | skip | lose | resolve | handle | handler | startRaises => exact ⟨rfl, rfl⟩
  | _ => cases handler

theorem outdated_dispatch_keeps {l : LinkId} {drained : Bool} {reply : Reply} (mine : a.dispatch? = some d)
    (sending : m.dispatches[d]? = some ⟨t, .sending l w attempt drained reply⟩)
    (late : m.isCurrentAttempt t w attempt = false) (move : Micro m a mid) :
    mid.tasks = m.tasks ∧ mid.responses = m.responses := by
  have lost (reason : String) : (m.popPending l t attempt).unreachable d t w attempt reason =
      (m.popPending l t attempt).setDispatch d (.returned (workerUnreachable t attempt reason)) := by
    have past : (m.popPending l t attempt).isCurrentAttempt t w attempt = false := late
    simp [Master.unreachable, past]
  cases move with
  | sendLost there _ _ | replyLost there =>
    obtain rfl := Option.some.inj mine
    rw [sending] at there
    cases there
    rw [lost]
    exact ⟨rfl, rfl⟩
  | @replied _ _ _ _ _ response there =>
    obtain rfl := Option.some.inj mine
    rw [sending] at there
    cases there
    have past : (m.popPending l t attempt).isCurrentAttempt t w attempt = false := late
    simp only [handleReply, past]
    exact ⟨rfl, rfl⟩
  | orphan there _ _ _ | unreached there _ _ _ _ | unencodable there _ _ _ _ _ | overflow there _ _ _ _ _
  | write there _ _ _ _ | finish there =>
    obtain rfl := Option.some.inj mine
    rw [sending] at there
    cases there
  | skip | lose | handler | startRaises | drained | abort | abandon => exact ⟨rfl, rfl⟩
  | cleanup named _ _ _ =>
    cases a <;> simp [Action.link?, Action.dispatch?] at named mine
  | _ => cases mine

theorem outdated_keeps (outdated : m.Outdated a t) (taken : m.step a = some m') :
    m'.tasks = m.tasks ∧ m'.responses = m.responses := by
  rcases outdated with handler | ⟨d, l, w, attempt, drained, reply, mine, sending, late⟩
  · exact handler_keeps handler (step_micro (.inl handler) taken)
  · exact outdated_dispatch_keeps mine sending late (step_micro (.inr (by simp [mine])) taken)

/-- For every task of every run: a terminal status stays; `_task_responses` is
written at most once, with the response of the attempt the task ended in; and
no handler and no call of an earlier attempt changes the task or its response. -/
theorem single_terminal_outcome {m : Master} (run : Steps step anyStep initial m) (t : TaskId) :
    (∀ m' task, Steps step anyStep m m' → m.tasks.get? t = some task → task.status.terminal = true →
      ∃ task', m'.tasks.get? t = some task' ∧ task'.status = task.status ∧
        task'.assignedWorkerId = task.assignedWorkerId ∧ task'.attempt = task.attempt) ∧
    (m.recordedResponses t).length ≤ 1 ∧
    (∀ response, response ∈ m.recordedResponses t ↔ m.responses.get? t = some response) ∧
    (∀ response ∈ m.recordedResponses t, ∃ task, m.tasks.get? t = some task ∧
      task.status.terminal = true ∧ response.requestId = attemptRequestId t task.attempt ∧
      (task.status = .completed ↔ response.isSuccess = true)) ∧
    (∀ a m', m.Outdated a t → m.step a = some m' →
      m'.tasks.get? t = m.tasks.get? t ∧ m'.responses.get? t = m.responses.get? t) := by
  have fenced := fenced_of_run run
  refine ⟨?_, (fenced.leases t).once, fun _ => published_iff run, fun _ => recorded_agrees fenced, ?_⟩
  · intro m' task later found ended
    exact (terminal_kept fenced later found ended).1
  · intro a m' outdated taken
    obtain ⟨tasks, responses⟩ := outdated_keeps outdated taken
    rw [tasks, responses]
    exact ⟨rfl, rfl⟩

/-- A worker registers, is given task `t` and answers it with success. -/
def completedRun : List Action :=
  [.submitTask "t" "ADD" [], .accept, .receive 0 (registerRequest "w") 0, .replySent 0,
    .callDrain (some ["t"]) 30000 0, .startDispatch 0 1000, .receive 0 (taskResult "t" 1 "success") 10,
    .sendDrained 0, .resumeDispatch 0]

theorem completedRun_outcome : ∃ m, Steps step anyStep initial m ∧
    (m.tasks.get? "t").map Task.status = some .completed ∧ (m.recordedResponses "t").length = 1 ∧
    ∀ response ∈ m.recordedResponses "t", response.requestId = "task-t:1" := by
  obtain ⟨m, run, ended, once⟩ : ∃ m, Steps step anyStep initial m ∧
      (m.tasks.get? "t").map (fun task => (task.status, task.attempt)) = some (.completed, 1) ∧
      (m.recordedResponses "t").length = 1 := replay_reaches completedRun (by decide)
  have outcome := single_terminal_outcome run "t"
  obtain ⟨task, found, same⟩ := Option.map_eq_some_iff.mp ended
  obtain ⟨completed, first⟩ := Prod.mk.inj same
  refine ⟨m, run, by rw [found, ← completed]; rfl, once, ?_⟩
  intro response recorded
  obtain ⟨task', found', _, named, _⟩ := outcome.2.2.2.1 response recorded
  obtain rfl : task = task' := Option.some.inj (found.symm.trans found')
  rw [named, first]
  decide

/-! ### Terminal tasks without a response -/

/-- No task is left terminal without a response by this step: the only task out
of attempts that is requeued is the caller's own, and no settled call raises. -/
def strandsNothing (m : Master) (a : Action) : Prop := m.strandedBy a = []

instance (m : Master) (a : Action) : Decidable (m.strandsNothing a) :=
  inferInstanceAs (Decidable (m.strandedBy a = []))

/-- No call of `dispatch_assigned_task` for `t` is suspended. -/
def Quiet (m : Master) (t : TaskId) : Prop :=
  ∀ dispatch ∈ m.dispatches, dispatch.taskId = t → dispatch.pc.suspended = false

instance (m : Master) (t : TaskId) : Decidable (m.Quiet t) :=
  inferInstanceAs (Decidable (∀ dispatch ∈ m.dispatches, dispatch.taskId = t → dispatch.pc.suspended = false))

theorem no_settled_of_quiet (quiet : m.Quiet t) (d : DispatchId) (response : Message) :
    (m.lease t).holders d ≠ some (.settled response) := by
  intro holder
  obtain ⟨dispatch, there, mine⟩ := Option.bind_eq_some_iff.mp holder
  have calm := quiet dispatch (List.mem_of_getElem? there)
  unfold Dispatch.holder at mine
  split at mine
  · rename_i same
    have stopped := calm same
    cases pc : dispatch.pc <;> simp_all [DispatchPc.suspended]
  · cases mine

/-- In a run that strands nothing, a terminal task without a suspended call has
its response in `_task_responses`. -/
theorem terminal_task_has_response {m : Master} (run : Steps step strandsNothing initial m) {t : TaskId}
    {task : Task} (found : m.tasks.get? t = some task) (ended : task.status.terminal = true)
    (quiet : m.Quiet t) : m.responses.contains t = true := by
  have moves : ReflTransGen (Lease.Move (leaseRules t) False) (initial.lease t) (m.lease t) := by
    refine run_leases fenced_initial run t ?_
    intro n a nothing stranded
    rw [nothing] at stranded
    cases stranded
  have covered : (initial.lease t).Covered := by
    rw [lease_initial]
    exact nofun
  have final : (m.lease t).status.final = true := by rw [(lease_of_task found).1, lease_final, ended]
  rcases covered.run moves final with published | ⟨d, response, settled⟩
  · obtain ⟨response, member⟩ := List.exists_mem_of_ne_nil _ published
    rw [Dict.contains, (published_iff run).mp member]
    rfl
  · exact absurd settled (no_settled_of_quiet quiet d response)

theorem completedRun_has_response : ∃ m, Steps step strandsNothing initial m ∧
    (m.tasks.get? "t").map Task.status = some .completed ∧ m.responses.contains "t" = true := by
  obtain ⟨m, run, completed, quiet⟩ : ∃ m, Steps step strandsNothing initial m ∧
      (m.tasks.get? "t").map Task.status = some .completed ∧ m.Quiet "t" :=
    replay_reaches completedRun (by decide)
  obtain ⟨task, found, status⟩ := Option.map_eq_some_iff.mp completed
  refine ⟨m, run, completed, ?_⟩
  exact terminal_task_has_response run found (by rw [status]; rfl) quiet

/-- The worker of `t` misses its heartbeats in each of the three attempts, so
the failure monitor fails `t`, which no call records. -/
def strandingRun : List Action :=
  [.submitTask "t" "ADD" [], .accept, .receive 0 (registerRequest "w") 0, .replySent 0, .startDispatcher,
    .dispatcherTick, .startDispatch 0 1000, .startMonitor, .monitorTick 0 6000,
    .receive 0 (registerRequest "w") 6001, .replySent 0, .dispatcherTick, .startDispatch 1 1000, .monitorTick 0 12000,
    .receive 0 (registerRequest "w") 12001, .replySent 0, .dispatcherTick, .startDispatch 2 1000,
    .monitorTick 0 18000, .connectionLost 0, .handlerRaises 0, .sendDrained 0, .resumeDispatch 0, .sendDrained 1,
    .resumeDispatch 1, .sendDrained 2, .resumeDispatch 2]

theorem strandingRun_no_response : ∃ m, Steps step anyStep initial m ∧
    (m.tasks.get? "t").map Task.status = some .failed ∧ m.Quiet "t" ∧ m.responses.contains "t" = false :=
  replay_reaches strandingRun (by decide)

/-! ### How often a task is sent -/

/-- A worker's TASK_RESULT with a status other than success has reached a call for `t`. -/
def hasErrorReply (m : Master) (t : TaskId) : Bool :=
  m.dispatches.any (fun dispatch => dispatch.taskId = t && match dispatch.pc with
    | .sending _ _ _ _ (.message response) => response.type = .taskResult && !response.isSuccess
    | _ => false)

theorem length_le_of_increasing {attempts : List Nat} {limit : Nat} (increasing : attempts.Pairwise (· < ·))
    (bounds : ∀ a ∈ attempts, 1 ≤ a ∧ a ≤ limit) : attempts.length ≤ limit := by
  have nodup : attempts.Nodup := increasing.imp (fun below => Nat.ne_of_lt below)
  have within : attempts ⊆ List.range' 1 limit := by
    intro a member
    obtain ⟨low, high⟩ := bounds a member
    rw [List.mem_range'_1]
    omega
  simpa using (nodup.subperm within).length_le

/-- The task of a call that is back with an execution error of the current
attempt is FAILED from then on. -/
theorem error_reply_fails {l : LinkId} {status : Val} (fenced : m.Fenced)
    (sending : m.dispatches[d]? = some ⟨t, .sending l w attempt true (.message response)⟩)
    (result : response.type = .taskResult) (given : response.get? "status" = some status)
    (failure : response.isSuccess = false) (current : m.isCurrentAttempt t w attempt = true)
    (taken : m.step (.resumeDispatch d) = some m') :
    ∃ task, m'.tasks.get? t = some task ∧ task.status = .failed := by
  have sound := fenced.working sending
  obtain ⟨task, found, owner, _, running⟩ := running_of_isCurrentAttempt sound current
  obtain ⟨v, mine, known⟩ := fenced.base.owned t task found (by rw [running]; rfl)
  obtain rfl : w = v := Option.some.inj (owner.symm.trans mine)
  have fails : m'.scheduler = (m.scheduler.setTaskStatus t .failed).released w := by
    have step : m' = (m.popPending l t attempt).handleReply d t w attempt response := by
      simpa [Master.step, sending, dispatchStep] using taken.symm
    have still : (m.popPending l t attempt).isCurrentAttempt t w attempt = true := current
    have settles : (m.popPending l t attempt).handleReply d t w attempt response =
        (m.popPending l t attempt).settled d t w attempt response
          ((m.popPending l t attempt).scheduler.failTask t) := by
      have notSuccess : status ≠ .str "success" := by
        rintro rfl
        simp [Message.isSuccess, result, given] at failure
      cases status <;> simp_all [handleReply]
    have failed : (m.popPending l t attempt).scheduler.failTask t =
        (.ok (), (m.scheduler.setTaskStatus t .failed).released w) :=
      Scheduler.failTask_of_known found owner known
    rw [step, settles, failed, Master.settled]
    simp
  refine ⟨{ task with status := .failed }, ?_, rfl⟩
  rw [tasks, fails, Scheduler.released_tasks, Scheduler.get?_setTaskStatus, if_pos rfl]
  exact congrArg _ found

theorem recordIfTerminal_sentAttempts (m : Master) (t : TaskId) (response : Message) (u : TaskId) :
    (m.recordIfTerminal t response).sentAttempts u = m.sentAttempts u := by
  unfold recordIfTerminal
  split
  · split
    · simp [sentAttempts, recordTaskResponse, List.filterMap_append, Event.sentOf]
    · rfl
  · rfl

/-- A reply never makes its call send again. -/
theorem Settled.sentAttempts (outcome : Settled m d t w attempt response m') (u : TaskId) :
    m'.sentAttempts u = m.sentAttempts u := by
  cases outcome with
  | late _ => rfl
  | malformed => rfl
  | unknown _ _ _ _ => rfl
  | settled _ _ =>
    unfold closeIfDraining
    split
    · split
      · rfl
      · exact recordIfTerminal_sentAttempts (m.finishedTask t w response) t response u
    · exact recordIfTerminal_sentAttempts (m.finishedTask t w response) t response u

/-- The TASK messages written for `t` carry strictly increasing attempt numbers
between 1 and the maximum, and none follows an execution error that its call
processes while the attempt is still current. -/
theorem attempts_sent_in_order {m : Master} (run : Steps step anyStep initial m) (t : TaskId) :
    (m.sentAttempts t).Pairwise (· < ·) ∧
    (∀ attempt ∈ m.sentAttempts t, 1 ≤ attempt ∧ attempt ≤ maxTaskAttempts) ∧
    (m.sentAttempts t).length ≤ maxTaskAttempts ∧
    (∀ d l w attempt response status m' m'',
      m.dispatches[d]? = some ⟨t, .sending l w attempt true (.message response)⟩ →
      response.type = .taskResult → response.get? "status" = some status → response.isSuccess = false →
      m.isCurrentAttempt t w attempt = true → m.step (.resumeDispatch d) = some m' →
      Steps step anyStep m' m'' → m''.sentAttempts t = m.sentAttempts t) := by
  have fenced := fenced_of_run run
  have sound := fenced.leases t
  have bounds : ∀ attempt ∈ m.sentAttempts t, 1 ≤ attempt ∧ attempt ≤ maxTaskAttempts := by
    intro attempt member
    obtain ⟨low, high, _⟩ := sound.sent attempt member
    refine ⟨low, Nat.le_trans high ?_⟩
    by_cases waiting : (m.lease t).status = .waiting
    · exact Nat.le_of_lt (sound.waiting waiting).2
    · exact (sound.started waiting).2
  refine ⟨sound.increasing, bounds, length_le_of_increasing sound.increasing bounds, ?_⟩
  intro d l w attempt response status m' m'' sending result given failure current taken later
  obtain ⟨task, found, failed⟩ := error_reply_fails fenced sending result given failure current taken
  obtain ⟨_, same⟩ := terminal_kept (fenced.step taken) later found (by rw [failed]; rfl)
  have resumed : m' = (m.popPending l t attempt).handleReply d t w attempt response := by
    simpa [Master.step, sending, dispatchStep] using taken.symm
  rw [same, resumed]
  exact (handleReply_outcome (m.popPending l t attempt) d t w attempt response).sentAttempts t

/-- The worker answers `t` with an execution error. -/
def erroredRun : List Action :=
  [.submitTask "t" "ADD" [], .accept, .receive 0 (registerRequest "w") 0, .replySent 0, .startDispatcher,
    .dispatcherTick, .startDispatch 0 1000, .sendDrained 0, .receive 0 (taskResult "t" 1 "error") 10]

theorem erroredRun_sent_once : ∃ m m', Steps step anyStep initial m ∧
    m.dispatches[0]? = some ⟨"t", .sending 0 "w" 1 true (.message (taskResult "t" 1 "error"))⟩ ∧
    m.isCurrentAttempt "t" "w" 1 = true ∧ m.step (.resumeDispatch 0) = some m' ∧
    m.sentAttempts "t" = [1] ∧ m'.sentAttempts "t" = [1] := by
  obtain ⟨m, played⟩ : ∃ m, replay step anyStep initial erroredRun = some m :=
    Option.isSome_iff_exists.mp (by decide)
  have sending : (replay step anyStep initial erroredRun).map (fun m => m.dispatches[0]?) =
      some (some ⟨"t", .sending 0 "w" 1 true (.message (taskResult "t" 1 "error"))⟩) := rfl
  have state : (replay step anyStep initial erroredRun).map (fun m =>
      (m.isCurrentAttempt "t" "w" 1, m.sentAttempts "t", (m.step (.resumeDispatch 0)).isSome)) =
      some (true, [1], true) := by decide
  rw [played, Option.map_some, Option.some.injEq] at sending
  rw [played, Option.map_some, Option.some.injEq, Prod.mk.injEq, Prod.mk.injEq] at state
  obtain ⟨current, sent, enabled⟩ := state
  obtain ⟨m', taken⟩ := Option.isSome_iff_exists.mp enabled
  obtain ⟨_, _, _, never⟩ := attempts_sent_in_order (replay_steps played) "t"
  have same := never 0 0 "w" 1 _ (.str "error") m' m' sending rfl rfl rfl current taken .refl
  exact ⟨m, m', replay_steps played, sending, current, taken, sent, same.trans sent⟩

/-- The first worker is given up for missed heartbeats and then answers with an
execution error, which is late; `t` goes to a second worker. -/
def lateErrorRun : List Action :=
  [.submitTask "t" "ADD" [], .accept, .receive 0 (registerRequest "v") 0, .replySent 0, .startDispatcher,
    .dispatcherTick, .startDispatch 0 1000, .sendDrained 0, .startMonitor, .monitorTick 0 6000,
    .receive 0 (taskResult "t" 1 "error") 6001]

def resentRun : List Action :=
  [.resumeDispatch 0, .accept, .receive 1 (registerRequest "w") 6002, .replySent 1, .dispatcherTick,
    .startDispatch 1 1000]

theorem lateErrorRun_resent : ∃ m m', Steps step anyStep initial m ∧ m.hasErrorReply "t" = true ∧
    m.sentAttempts "t" = [1] ∧ Steps step anyStep m m' ∧ m'.sentAttempts "t" = [1, 2] := by
  obtain ⟨m, played⟩ : ∃ m, replay step anyStep initial lateErrorRun = some m :=
    Option.isSome_iff_exists.mp (by decide)
  have answered : (replay step anyStep initial lateErrorRun).map (fun m =>
      (m.hasErrorReply "t", m.sentAttempts "t")) = some (true, [1]) := by decide
  have resent : ((replay step anyStep initial lateErrorRun).bind (fun m =>
      replay step anyStep m resentRun)).map (fun m => m.sentAttempts "t") = some [1, 2] := by decide
  rw [played, Option.map_some, Option.some.injEq, Prod.mk.injEq] at answered
  rw [played, Option.bind_some] at resent
  obtain ⟨m', later, sent⟩ := Option.map_eq_some_iff.mp resent
  exact ⟨m, m', replay_steps played, answered.1, answered.2, replay_steps later, sent⟩

end Master
end DistributedCompute
