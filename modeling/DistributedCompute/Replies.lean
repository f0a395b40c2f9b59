import DistributedCompute.Footprint

/-! A reply that reaches the call of the current attempt settles the task and
releases its worker in one step, and the call then records it. The one reply that
does neither is a TASK_RESULT whose payload has no "status": `result["status"]`
raises in the middle of the call. -/
namespace DistributedCompute
open Py Relation Transition

/-- `dispatch_assigned_task` finds the verdict it looks for in the reply. -/
def Message.hasVerdict (response : Message) : Bool :=
  response.type ≠ .taskResult || (response.get? "status").isSome

namespace Master
variable {m : Master} {d : DispatchId} {t : TaskId} {w : WorkerId} {attempt : Nat} {response : Message}

theorem settled_of_fail {task : Task} (found : m.tasks.get? t = some task) (owner : task.assignedWorkerId = some w)
    (known : m.workers.contains w = true) (failure : response.isSuccess = false) :
    m.settled d t w attempt response (m.scheduler.failTask t) =
      (m.finishedTask t w response).closeIfDraining d t w attempt response := by
  rw [Scheduler.failTask_of_known found owner known]
  simp [Master.settled, finishedTask, failure]

theorem handleReply_of_verdict {task : Task} (found : m.tasks.get? t = some task)
    (owner : task.assignedWorkerId = some w) (number : task.attempt = attempt) (running : task.status = .running)
    (known : m.workers.contains w = true) (verdict : response.hasVerdict = true) :
    m.handleReply d t w attempt response =
      (m.finishedTask t w response).closeIfDraining d t w attempt response := by
  have current : m.isCurrentAttempt t w attempt = true := isCurrentAttempt_iff.mpr ⟨task, found, owner, number⟩
  simp only [handleReply, current, if_true]
  split
  · rename_i other
    exact settled_of_fail found owner known (by simp [Message.isSuccess, other])
  · rename_i result
    have isResult : response.type = .taskResult := by simpa using result
    split
    · rename_i absent
      simp [Message.hasVerdict, isResult, absent] at verdict
    · rename_i status given
      split
      · rename_i success
        have good : response.isSuccess = true := by simp [Message.isSuccess, isResult, given, success]
        rw [Scheduler.completeTask_of_known found (by rw [running]; rfl) owner known]
        simp [Master.settled, finishedTask, good]
      · rename_i failure
        exact settled_of_fail found owner known (by simp [Message.isSuccess, given, failure])
    · rename_i value other given
      refine settled_of_fail found owner known ?_
      simp only [Message.isSuccess, given]
      cases value <;> simp_all

/-- The whole step of a call that is back with the reply of the current attempt. -/
theorem resume_of_verdict {l : LinkId} (fenced : m.Fenced)
    (sending : m.dispatches[d]? = some ⟨t, .sending l w attempt true (.message response)⟩)
    (current : m.isCurrentAttempt t w attempt = true) (verdict : response.hasVerdict = true) :
    (∃ task, m.tasks.get? t = some task ∧ m.workers.contains w = true) ∧ m.step (.resumeDispatch d) =
      some (((m.popPending l t attempt).finishedTask t w response).closeIfDraining d t w attempt response) := by
  have sound := fenced.working sending
  obtain ⟨task, found, owner, number, running⟩ := running_of_isCurrentAttempt sound current
  obtain ⟨v, mine, known⟩ := fenced.base.owned t task found (by rw [running]; rfl)
  obtain rfl : w = v := Option.some.inj (owner.symm.trans mine)
  have handled : (m.popPending l t attempt).handleReply d t w attempt response = _ :=
    handleReply_of_verdict (m := m.popPending l t attempt) found owner number running known verdict
  refine ⟨⟨task, found, known⟩, ?_⟩
  rw [← handled]
  simp [step, sending, dispatchStep]

/-- Only the cancelled call itself strands a task that has been answered. -/
theorem not_stranded_of_answered {a : Action} (fenced : m.Fenced) (answered : (m.lease t).Answered d response)
    (other : a ≠ .abortDispatch d) :
    t ∉ m.strandedBy a := by
  have sound := fenced.leases t
  have ended := sound.answered_final answered
  intro stranded
  rcases List.mem_append.mp stranded with aborted | requeued
  · split at aborted
    · rename_i e
      split at aborted
      · rename_i u w attempt outcome closing
        obtain rfl := List.mem_singleton.mp aborted
        have settled : (m.lease t).holders e = some (.settled outcome) := by
          simp [lease, closing, Dispatch.holder]
        obtain ⟨_, unpublished, only⟩ := sound.settled e outcome settled
        rcases answered with mine | published
        · exact other (by rw [only d response mine])
        · simp [published] at unpublished
      · cases aborted
    · cases aborted
  · obtain ⟨⟨u, task⟩, member, rfl⟩ := List.mem_map.mp requeued
    obtain ⟨entry, held⟩ := List.mem_filter.mp member
    simp only [Bool.and_eq_true] at held
    rw [(lease_of_task (Dict.mem_entries.mp entry)).1, lease_final] at ended
    cases status : task.status <;> simp_all [TaskStatus.inFlight, TaskStatus.terminal]

theorem Fenced.answered_step {m' : Master} {a : Action} (fenced : m.Fenced)
    (answered : (m.lease t).Answered d response) (other : a ≠ .abortDispatch d) (taken : m.step a = some m') :
    (m'.lease t).Answered d response := by
  have kept := not_stranded_of_answered fenced answered other
  have moves := ReflTransGen.mono (fun _ _ => Lease.Move.mono (fun lost => kept lost)) _ _
    (step_leases fenced taken t)
  exact (fenced.leases t).answered_run answered moves

/-- The call has ended, by a return or an exception. -/
def callEnded (m : Master) (d : DispatchId) : Bool :=
  match m.dispatchPc d with
  | some (.returned _) | some .raised => true
  | _ => false

def notAborted (d : DispatchId) (_ : Master) (a : Action) : Prop := a ≠ .abortDispatch d

section Reply
variable {m m₁ m₂ : Master} {d : DispatchId} {t : TaskId} {l : LinkId} {w : WorkerId} {attempt : Nat}
  {response : Message}

theorem answered_of_resume (fenced : m.Fenced)
    (sending : m.dispatches[d]? = some ⟨t, .sending l w attempt true (.message response)⟩)
    (current : m.isCurrentAttempt t w attempt = true) :
    ((((m.popPending l t attempt).finishedTask t w response).closeIfDraining d t w attempt response).lease t).Answered
      d response := by
  have sound := fenced.working sending
  have belongs := fenced.base.wired.replies d t l w attempt true response sending
  have settles : Lease.Move (leaseRules t) False (m.working t d w attempt) _ :=
    lease_settled (m := m.popPending l t attempt) sound current belongs
  refine (sound.step settles).answered_run (.inl (Function.update_self ..)) ?_
  exact lease_closed (m := m.popPending l t attempt) sound sending current

/-- Call `d` for `t` has its reply and is closing the connection, or through. -/
def Wrapping (m : Master) (d : DispatchId) (t : TaskId) (response : Message) : Prop :=
  ∃ pc, m.dispatches[d]? = some ⟨t, pc⟩ ∧
    ((∃ w attempt, pc = .closing w attempt response) ∨ pc = .returned response)

theorem Wrapping.kept {a : Action} (wrapping : m.Wrapping d t response) (good : notAborted d m a)
    (taken : m.step a = some m₁) : m₁.Wrapping d t response := by
  obtain ⟨pc, there, which⟩ := wrapping
  obtain ⟨dispatch', there', advance⟩ := step_advance taken there
  have unchanged : dispatch' = ⟨t, pc⟩ → m₁.Wrapping d t response := by
    rintro rfl
    exact ⟨pc, there', which⟩
  rcases which with ⟨w, attempt, rfl⟩ | rfl
  · cases advance with
    | same => exact unchanged rfl
    | aborted abort => exact absurd abort good
    | finished _ => exact ⟨_, there', .inr rfl⟩
  · cases advance with
    | same => exact unchanged rfl
    | aborted abort => exact absurd abort good

theorem Wrapping.recorded {ok : Master → Action → Prop} (run : Steps step ok initial m)
    (wrapping : m.Wrapping d t response) (answered : (m.lease t).Answered d response)
    (ended : m.callEnded d = true) : m.responses.get? t = some response := by
  obtain ⟨pc, there, which⟩ := wrapping
  rcases which with ⟨w, attempt, rfl⟩ | rfl
  · simp [callEnded, dispatchPc, there] at ended
  · rcases answered with settled | published
    · simp [lease, there, Dispatch.holder] at settled
    · have member : response ∈ m.recordedResponses t := by
        have recorded : m.recordedResponses t = [response] := published
        simp [recorded]
      exact (published_iff run).mp member

theorem Wrapping.closes (wrapping : m.Wrapping d t response) (suspended : m.callEnded d = false) :
    (m.step (.connectionClosed d)).isSome = true := by
  obtain ⟨pc, there, which⟩ := wrapping
  rcases which with ⟨w, attempt, rfl⟩ | rfl
  · simp [step, there, dispatchStep]
  · simp [callEnded, dispatchPc, there] at suspended

/-- Every reply with a verdict settles its task. -/
theorem reply_settles (run : Steps step anyStep initial m)
    (sending : m.dispatches[d]? = some ⟨t, .sending l w attempt true (.message response)⟩)
    (current : m.isCurrentAttempt t w attempt = true) (verdict : response.hasVerdict = true) :
    ∃ m₁, m.step (.resumeDispatch d) = some m₁ ∧
      m₁.workers.statusOf w = some (if m.workers.statusOf w = some .draining then .draining else .idle) ∧
      ∀ m₂, Steps step (notAborted d) m₁ m₂ →
        (∃ task, m₂.tasks.get? t = some task ∧
          task.status = if response.isSuccess then .completed else .failed) ∧
        (m₂.callEnded d = true → m₂.responses.get? t = some response) ∧
        (m₂.callEnded d = false → (m₂.step (.connectionClosed d)).isSome = true) := by
  have fenced := fenced_of_run run
  obtain ⟨⟨task, found, known⟩, resumed⟩ := resume_of_verdict fenced sending current verdict
  refine ⟨_, resumed, ?_, ?_⟩
  · obtain ⟨worker, registered⟩ := Option.isSome_iff_exists.mp known
    rw [Master.workers, closeIfDraining_scheduler, finishedTask, Scheduler.statusOf_finished]
    by_cases draining : m.workers.statusOf w = some .draining
    · rw [if_pos draining, if_neg (fun released => released.2 draining)]
      exact draining
    · rw [if_neg draining, if_pos ⟨rfl, draining⟩]
      have status : m.workers.statusOf w = some worker.status := by
        rw [WorkerManager.statusOf, registered, Option.map_some]
      exact congrArg _ status
  · have answered := answered_of_resume fenced sending current
    have run₁ := run.snoc trivial resumed
    have fenced₁ := fenced_of_run run₁
    have wrapping : (((m.popPending l t attempt).finishedTask t w response).closeIfDraining
        d t w attempt response).Wrapping d t response := by
      obtain ⟨pc, which, after⟩ := closeIfDraining_dispatches
        ((m.popPending l t attempt).finishedTask t w response) d t w attempt response
      refine ⟨pc, ?_, which.imp_left (fun closing => ⟨w, attempt, closing⟩)⟩
      rw [after, dispatches_setDispatch, if_pos rfl]
      exact congrArg _ sending
    have settled : Dict.get? (Master.tasks (((m.popPending l t attempt).finishedTask t w response).closeIfDraining
        d t w attempt response)) t =
          some { task with status := if response.isSuccess then .completed else .failed } := by
      rw [Master.tasks, closeIfDraining_scheduler]
      refine (get?_finishedTask (m.popPending l t attempt) t t w response).trans ?_
      rw [if_pos rfl]
      exact congrArg _ found
    generalize ((m.popPending l t attempt).finishedTask t w response).closeIfDraining d t w attempt response = m₁
      at answered run₁ fenced₁ wrapping settled
    intro m₂ rest
    have run₂ : Steps step anyStep initial m₂ := run₁.trans (rest.mono (fun _ _ _ => trivial))
    have wrapped : m₂.Wrapping d t response :=
      rest.invariant (I := fun n => n.Wrapping d t response) wrapping (fun _ _ _ held good => held.kept good)
    have still : (m₂.lease t).Answered d response := by
      exact rest.invariant_with (I := fun n => (n.lease t).Answered d response) (fun _ before => fenced₁.run before)
        answered (fun _ _ _ fenced held good => fenced.answered_step held good)
    refine ⟨?_, wrapped.recorded run₂ still, wrapped.closes⟩
    obtain ⟨⟨task', found', status, _⟩, _⟩ := terminal_kept fenced₁ rest settled (by simp only; split <;> rfl)
    exact ⟨task', found', status⟩

/-- `w` answers `t` and then leaves service while its result is being read. -/
def leavingReplyRun : List Action :=
  [.submitTask "t" "ADD" [], .accept, .receive 0 (registerRequest "w") 0, .replySent 0, .startDispatcher,
    .dispatcherTick, .startDispatch 0 1000, .sendDrained 0, .receive 0 (shutdownRequest "w") 5, .replySent 0,
    .receive 0 (taskResult "t" 1 "success") 10]

theorem leavingReplyRun_settles : ∃ m m₁, Steps step anyStep initial m ∧
    m.step (.resumeDispatch 0) = some m₁ ∧ m₁.workers.statusOf "w" = some .draining ∧
    (∃ task, m₁.tasks.get? "t" = some task ∧ task.status = .completed) ∧
    (m₁.callEnded 0 = false → (m₁.step (.connectionClosed 0)).isSome = true) := by
  obtain ⟨m, played⟩ : ∃ m, replay step anyStep initial leavingReplyRun = some m :=
    Option.isSome_iff_exists.mp (by decide)
  have sending : (replay step anyStep initial leavingReplyRun).map (fun m => m.dispatches[0]?) =
      some (some ⟨"t", .sending 0 "w" 1 true (.message (taskResult "t" 1 "success"))⟩) := rfl
  have state : (replay step anyStep initial leavingReplyRun).map (fun m =>
      (m.isCurrentAttempt "t" "w" 1, m.workers.statusOf "w")) = some (true, some .draining) := by decide
  rw [played, Option.map_some, Option.some.injEq] at sending
  rw [played, Option.map_some, Option.some.injEq, Prod.mk.injEq] at state
  obtain ⟨current, draining⟩ := state
  obtain ⟨m₁, resumed, released, rest⟩ := reply_settles (replay_steps played) sending current rfl
  obtain ⟨completed, _, closes⟩ := rest m₁ .refl
  rw [if_pos draining] at released
  exact ⟨m, m₁, replay_steps played, resumed, released, completed, closes⟩

/-- `w` answers `t` with a TASK_RESULT whose payload is empty. -/
def bareReplyRun : List Action :=
  [.submitTask "t" "ADD" [], .accept, .receive 0 (registerRequest "w") 0, .replySent 0, .startDispatcher,
    .dispatcherTick, .startDispatch 0 1000, .sendDrained 0, .receive 0 ⟨.taskResult, attemptRequestId "t" 1, []⟩ 10]

theorem bareReplyRun_unsettled : ∃ m m₁, Steps step anyStep initial m ∧
    m.step (.resumeDispatch 0) = some m₁ ∧ m.isCurrentAttempt "t" "w" 1 = true ∧ m₁.callEnded 0 = true ∧
    (m₁.tasks.get? "t").map Task.status = some .running ∧ m₁.workers.statusOf "w" = some .busy ∧
    m₁.responses.contains "t" = false :=
  replay_then bareReplyRun (Action.resumeDispatch 0) (by decide)

end Reply
end Master
end DistributedCompute
