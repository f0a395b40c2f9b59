import DistributedCompute.Outcomes

/-! Where the responses of the master come from. A response that a call holds,
returned or recorded for a task is the WORKER_UNREACHABLE error the master wrote
itself, or a message it received on the link of a call for that task. The predicate
on tasks and responses is arbitrary, so that whatever is known about received
messages carries over to every response. -/
namespace DistributedCompute
open Py Relation Transition

/-- The response a call of `dispatch_assigned_task` has at hand. -/
def DispatchPc.response? : DispatchPc → Option Message
  | .sending _ _ _ _ (.message response) => some response
  | .closing _ _ response => some response
  | .returned response => some response
  | _ => none

namespace Master

/-- Every response for a task has property `P`. -/
structure Backed (P : TaskId → Message → Prop) (m : Master) : Prop where
  held : ∀ {d : DispatchId} {t : TaskId} {pc : DispatchPc} {response : Message},
    m.dispatches[d]? = some ⟨t, pc⟩ → pc.response? = some response → P t response
  recorded : ∀ {t : TaskId} {response : Message}, response ∈ m.recordedResponses t → P t response

/-- The message resolves the future of a call for `t`. -/
def Resolves (m : Master) (l : LinkId) (message : Message) (t : TaskId) : Prop :=
  ∃ (d : DispatchId) (w : WorkerId) (attempt : Nat) (drained : Bool),
    m.dispatches[d]? = some ⟨t, .sending l w attempt drained .waiting⟩ ∧
    message.requestId = attemptRequestId t attempt

section Backed
variable {P Q : TaskId → Message → Prop} {m m' : Master} {d : DispatchId} {t : TaskId} {pc : DispatchPc}
  {w : WorkerId} {attempt : Nat} {response : Message}

theorem Backed.mono (backed : m.Backed P) (imp : ∀ t response, P t response → Q t response) : m.Backed Q :=
  ⟨fun there held => imp _ _ (backed.held there held), fun recorded => imp _ _ (backed.recorded recorded)⟩

theorem Backed.congr (backed : m.Backed P) (dispatches : m'.dispatches = m.dispatches)
    (recorded : ∀ t, m'.recordedResponses t = m.recordedResponses t) : m'.Backed P := by
  refine ⟨fun there held => ?_, fun {t response} member => ?_⟩
  · rw [dispatches] at there
    exact backed.held there held
  · rw [recorded t] at member
    exact backed.recorded member

theorem Backed.startedTask (backed : m.Backed P) (t : TaskId) : (m.startedTask t).Backed P :=
  backed.congr rfl (fun _ => rfl)

theorem Backed.popPending (backed : m.Backed P) (l : LinkId) (t : TaskId) (attempt : Nat) :
    (m.popPending l t attempt).Backed P :=
  backed.congr rfl (fun _ => rfl)

/-- A call moves on to a program counter whose response, if any, is backed. -/
theorem Backed.setDispatch (backed : m.Backed P) (there : m.dispatches[d]? = some ⟨t, pc⟩) {next : DispatchPc}
    (new : ∀ response, next.response? = some response → P t response) : (m.setDispatch d next).Backed P := by
  refine ⟨fun {e u after response} found held => ?_, backed.recorded⟩
  rw [dispatches_setDispatch] at found
  split at found
  · rename_i same
    rw [same, there, Option.map_some, Option.some.injEq, Dispatch.mk.injEq] at found
    obtain ⟨rfl, rfl⟩ := found
    exact new response held
  · exact backed.held found held

theorem Backed.recordIfTerminal (backed : m.Backed P) (good : P t response) :
    (m.recordIfTerminal t response).Backed P := by
  refine ⟨fun there held => ?_, fun {u other} recorded => ?_⟩
  · rw [recordIfTerminal_dispatches] at there
    exact backed.held there held
  · unfold Master.recordIfTerminal at recorded
    split at recorded
    · split at recorded
      · simp only [recordedResponses, recordTaskResponse, List.filterMap_append, List.mem_append] at recorded
        rcases recorded with before | added
        · exact backed.recorded before
        · simp only [List.filterMap_cons, List.filterMap_nil, Event.recordedOf] at added
          split at added
          · cases added
          · rename_i found
            split at found
            · rename_i same
              cases found
              obtain rfl := List.mem_singleton.mp added
              exact same ▸ good
            · cases found
      · exact backed.recorded recorded
    · exact backed.recorded recorded

theorem Backed.finishDispatch (backed : m.Backed P) (there : m.dispatches[d]? = some ⟨t, pc⟩)
    (good : P t response) : (m.finishDispatch d t response).Backed P := by
  have kept : (m.recordIfTerminal t response).dispatches[d]? = some ⟨t, pc⟩ := by
    rw [recordIfTerminal_dispatches]
    exact there
  refine (backed.recordIfTerminal good).setDispatch kept ?_
  rintro other held
  cases held
  exact good

theorem Backed.closeIfDraining (backed : m.Backed P) (there : m.dispatches[d]? = some ⟨t, pc⟩)
    (good : P t response) : (m.closeIfDraining d t w attempt response).Backed P := by
  unfold Master.closeIfDraining
  split
  · split
    · rename_i l _
      have lost : (m.loseLink l).Backed P := backed.congr rfl (fun _ => rfl)
      refine lost.setDispatch there ?_
      rintro other held
      cases held
      exact good
    · exact backed.finishDispatch there good
  · exact backed.finishDispatch there good

theorem Backed.unreached (backed : m.Backed P) (there : m.dispatches[d]? = some ⟨t, pc⟩) (good : P t response)
    (outcome : Unreached m d t w attempt response m') : m'.Backed P := by
  have returned : ∀ other, (DispatchPc.returned response).response? = some other → P t other := by
    rintro other held
    cases held
    exact good
  cases outcome with
  | late _ => exact backed.setDispatch there returned
  | unknown _ _ => exact backed.setDispatch there (fun _ held => nomatch held)
  | condemned _ _ =>
    have condemned : (m.condemnedWorker w).Backed P := backed.congr rfl (fun _ => rfl)
    have kept : ((m.condemnedWorker w).recordIfTerminal t response).dispatches[d]? = some ⟨t, pc⟩ := by
      rw [recordIfTerminal_dispatches]
      exact there
    exact (condemned.recordIfTerminal good).setDispatch kept returned

theorem Backed.settled (backed : m.Backed P) (there : m.dispatches[d]? = some ⟨t, pc⟩) (good : P t response)
    (outcome : Settled m d t w attempt response m') : m'.Backed P := by
  cases outcome with
  | late _ =>
    refine backed.setDispatch there ?_
    rintro other held
    cases held
    exact good
  | malformed => exact backed.setDispatch there (fun _ held => nomatch held)
  | unknown status _ _ _ =>
    have changed : Backed P { m with scheduler := m.scheduler.setTaskStatus t status } :=
      backed.congr rfl (fun _ => rfl)
    exact changed.setDispatch there (fun _ held => nomatch held)
  | settled _ _ =>
    have finished : (m.finishedTask t w response).Backed P := backed.congr rfl (fun _ => rfl)
    exact finished.closeIfDraining there good

/-- Failing the futures of a link takes no response away and adds none. -/
theorem Backed.cleanup (backed : m.Backed P) (l : LinkId) (link : Link) : (m.cleanup l link).Backed P := by
  refine ⟨fun {e u after response} there held => ?_, fun {u response} recorded => ?_⟩
  · rw [cleanup_dispatches, dispatches_failPending] at there
    obtain ⟨⟨v, before⟩, found, failed⟩ := Option.map_eq_some_iff.mp there
    split at failed
    · unfold Dispatch.failReply at failed
      split at failed
      · cases failed
        cases held
      · cases failed
        exact backed.held found held
    · cases failed
      exact backed.held found held
  · rw [recordedResponses, cleanup_history] at recorded
    exact backed.recorded recorded

theorem Backed.answered (backed : m.Backed P) (l : LinkId) (message response : Message) (ws : WorkerManager)
    (now : Time) : (m.answered l message response ws now).Backed P :=
  backed.congr rfl (fun t => congrArg Lease.State.published (lease_answered m l message response ws now t))

theorem Backed.write {task : Task} {l : LinkId} (backed : m.Backed P)
    (there : m.dispatches[d]? = some ⟨t, pc⟩) : (m.writeTask d t task w l).Backed P := by
  have moved : (m.setDispatch d (.sending l w task.attempt false .waiting)).Backed P :=
    backed.setDispatch there (fun _ held => nomatch held)
  refine moved.congr rfl (fun u => ?_)
  simp [recordedResponses, writeTask, Master.setDispatch, modifyLink, List.filterMap_append, Event.recordedOf]

/-- A move keeps the responses backed if the ones it adds are. -/
theorem Backed.micro {a : Action} (backed : m.Backed P) (wired : m.Wired)
    (unreachable : ∀ t attempt reason, P t (workerUnreachable t attempt reason))
    (received : ∀ l message now t, a = .receive l message now → m.Resolves l message t → P t message)
    (move : Micro m a m') : m'.Backed P := by
  cases move with
  | cleanup _ _ _ _ => exact backed.cleanup _ _
  | @resolve l link message now d t k w attempt drained there matched sending =>
    obtain ⟨rfl, belongs⟩ := wired.request_of_pended sending there matched
    refine backed.setDispatch sending ?_
    rintro other held
    cases held
    exact received l message now t rfl ⟨d, w, attempt, drained, sending, belongs⟩
  | handle _ _ _ _ => exact backed.answered _ _ _ _ _
  | install _ _ =>
    exact backed.congr (install_dispatches m _ _) (fun t => congrArg Lease.State.published (lease_install m _ _ t))
  | startRaises spawned _ => exact backed.setDispatch spawned (fun _ held => nomatch held)
  | orphan spawned _ _ _ =>
    exact (backed.startedTask _).setDispatch spawned (fun _ held => nomatch held)
  | unreached spawned _ _ _ _ =>
    exact (backed.startedTask _).unreached spawned (unreachable _ _ _)
      (unreachable_outcome _ _ _ _ _ _)
  | unencodable spawned _ _ _ _ _ =>
    exact ((backed.startedTask _).popPending _ _ _).unreached spawned
      (unreachable _ _ _) (unreachable_outcome _ _ _ _ _ _)
  | overflow spawned _ _ _ _ _ =>
    exact ((backed.startedTask _).popPending _ _ _).setDispatch spawned (fun _ held => nomatch held)
  | write spawned _ _ _ _ => exact (backed.startedTask _).write spawned
  | @drained d t l w attempt reply sending =>
    refine backed.setDispatch sending (fun other held => backed.held sending ?_)
    cases reply with
    | waiting | failed => cases held
    | message => exact held
  | sendLost sending _ _ =>
    exact (backed.popPending _ _ _).unreached sending (unreachable _ _ _)
      (unreachable_outcome _ _ _ _ _ _)
  | replyLost sending =>
    exact (backed.popPending _ _ _).unreached sending (unreachable _ _ _)
      (unreachable_outcome _ _ _ _ _ _)
  | replied sending =>
    exact (backed.popPending _ _ _).settled sending (backed.held sending rfl)
      (handleReply_outcome _ _ _ _ _ _)
  | abort sending =>
    exact (backed.popPending _ _ _).setDispatch sending
      (fun _ held => nomatch held)
  | finish closing => exact backed.finishDispatch closing (backed.held closing rfl)
  | abandon closing => exact backed.setDispatch closing (fun _ held => nomatch held)
  | skip | submit | accept | lose | handler | stale | clear => exact backed.congr rfl (fun _ => rfl)

theorem Backed.loop (backed : m.Backed P) (loop : Loop m m') : m'.Backed P := by
  cases loop with
  | grant | loops => exact backed.congr rfl (fun _ => rfl)
  | spawn batch =>
    refine ⟨fun there held => ?_, backed.recorded⟩
    rcases spawned_lookup there with found | ⟨new, _⟩
    · exact backed.held found held
    · cases new
      cases held

/-- Every response is one the master wrote for a worker it could not reach, or a
message that resolved a call for its task. -/
theorem Backed.step {a : Action} (backed : m.Backed P) (wired : m.Wired)
    (unreachable : ∀ t attempt reason, P t (workerUnreachable t attempt reason))
    (received : ∀ l message now t, a = .receive l message now → m.Resolves l message t → P t message)
    (taken : m.step a = some m') : m'.Backed P :=
  step_preserves taken (fun _ move => backed.micro wired unreachable received move)
    (fun _ _ loop kept => kept.loop loop)

end Backed

theorem backed_initial (P : TaskId → Message → Prop) : initial.Backed P :=
  ⟨fun there _ => (nomatch there), fun recorded => (nomatch recorded)⟩

end Master
end DistributedCompute
