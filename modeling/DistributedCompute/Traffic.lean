import DistributedCompute.Footprint

/-! What the master writes on its connections. A TASK is written by a call that starts,
on the link in the table, and noted in the history; every other message is the reply of
`handle_request` to a message read on the same link. The work of a task, its type and
payload, never changes once it is submitted. -/
namespace DistributedCompute
open Py Relation Transition

/-- The TASK messages written on link `l`, as task and attempt. -/
def Event.sentOn (l : LinkId) : Event → Option (TaskId × Nat)
  | .sent t attempt k => if k = l then some (t, attempt) else none
  | _ => none

def Event.isSent : Event → Bool
  | .sent _ _ _ => true
  | _ => false

namespace Master

def sentOn (m : Master) (l : LinkId) : List (TaskId × Nat) := m.history.filterMap (Event.sentOn l)

/-- The message that the step `a` to this state has written: the coroutine that took it
is suspended in `send_message`. -/
def written (m : Master) : Action → Option (LinkId × Message)
  | .receive l _ _ =>
    match (m.links[l]?).map Link.pc with
    | some (.replying _ response) => some (l, response)
    | _ => none
  | .startDispatch d _ =>
    match m.dispatches[d]? with
    | some ⟨t, .sending l _ _ false .waiting⟩ => (m.tasks.get? t).map (fun task => (l, taskRequest t task))
    | _ => none
  | _ => none

/-! ### The history -/

/-- What was added to the history, and no TASK is among it. -/
def Unsent (m m' : Master) : Prop :=
  ∃ new, m'.history = m.history ++ new ∧ ∀ event ∈ new, event.isSent = false

section Unsent
variable {m m' m'' : Master} {d : DispatchId} {t : TaskId} {w : WorkerId} {attempt : Nat} {response : Message}

theorem unsent_of_eq (same : m'.history = m.history) : m.Unsent m' :=
  ⟨[], by rw [same, List.append_nil], fun _ member => (nomatch member)⟩

theorem Unsent.trans (first : m.Unsent m') (second : m'.Unsent m'') : m.Unsent m'' := by
  obtain ⟨new, grown, unsent⟩ := first
  obtain ⟨newer, later, silent⟩ := second
  refine ⟨new ++ newer, by rw [later, grown, List.append_assoc], fun event member => ?_⟩
  rcases List.mem_append.mp member with early | late
  · exact unsent event early
  · exact silent event late

theorem Unsent.sentOn (unsent : m.Unsent m') (l : LinkId) : m'.sentOn l = m.sentOn l := by
  obtain ⟨new, grown, silent⟩ := unsent
  have none : new.filterMap (Event.sentOn l) = [] := by
    refine List.filterMap_eq_nil_iff.mpr fun event member => ?_
    have other := silent event member
    cases event with
    | sent => cases other
    | registered | recorded => rfl
  rw [Master.sentOn, grown, List.filterMap_append, none, List.append_nil]
  rfl

theorem unsent_recordIfTerminal (m : Master) (t : TaskId) (response : Message) :
    m.Unsent (m.recordIfTerminal t response) := by
  unfold recordIfTerminal
  split
  · split
    · refine ⟨[.recorded t response], rfl, fun event member => ?_⟩
      obtain rfl := List.mem_singleton.mp member
      rfl
    · exact unsent_of_eq rfl
  · exact unsent_of_eq rfl

theorem unsent_finishDispatch (m : Master) (d : DispatchId) (t : TaskId) (response : Message) :
    m.Unsent (m.finishDispatch d t response) := unsent_recordIfTerminal m t response

theorem unsent_closeIfDraining (m : Master) (d : DispatchId) (t : TaskId) (w : WorkerId) (attempt : Nat)
    (response : Message) : m.Unsent (m.closeIfDraining d t w attempt response) := by
  unfold closeIfDraining
  split
  · split
    · exact unsent_of_eq rfl
    · exact unsent_finishDispatch m d t response
  · exact unsent_finishDispatch m d t response

theorem Unreached.unsent (outcome : Unreached m d t w attempt response m') : m.Unsent m' := by
  cases outcome with
  | late _ => exact unsent_of_eq rfl
  | unknown _ _ => exact unsent_of_eq rfl
  | condemned _ _ => exact unsent_recordIfTerminal (m.condemnedWorker w) t response

theorem Settled.unsent (outcome : Settled m d t w attempt response m') : m.Unsent m' := by
  cases outcome with
  | late _ => exact unsent_of_eq rfl
  | malformed => exact unsent_of_eq rfl
  | unknown _ _ _ _ => exact unsent_of_eq rfl
  | settled _ _ => exact unsent_closeIfDraining (m.finishedTask t w response) d t w attempt response

theorem unsent_answered (m : Master) (l : LinkId) (message response : Message) (ws : WorkerManager) (now : Time) :
    m.Unsent (m.answered l message response ws now) := by
  refine ⟨m.registrationEvents l message now, rfl, fun event member => ?_⟩
  unfold registrationEvents at member
  split at member
  · cases member
  · split at member
    · obtain rfl := List.mem_singleton.mp member
      rfl
    · cases member

/-- Only a call that starts writes a TASK. -/
theorem Micro.unsent {a : Action} {mid : Master} (move : Micro m a mid)
    (other : ∀ d depth, a ≠ .startDispatch d depth) : m.Unsent mid := by
  cases move with
  | cleanup _ _ _ _ => exact unsent_of_eq (cleanup_history m _ _)
  | handle _ _ _ _ => exact unsent_answered m _ _ _ _ _
  | install _ _ => exact unsent_of_eq (install_history m _ _)
  | orphan | unreached | unencodable | overflow | write => exact absurd rfl (other _ _)
  | sendLost _ _ _ => exact (unreachable_outcome (popPending m _ _ _) _ _ _ _ _).unsent
  | replyLost _ => exact (unreachable_outcome (popPending m _ _ _) _ _ _ _ _).unsent
  | replied _ => exact (handleReply_outcome (popPending m _ _ _) _ _ _ _ _).unsent
  | finish _ => exact unsent_finishDispatch m _ _ _
  | skip | submit | accept | lose | resolve | handler | startRaises | drained | abort | abandon | stale | clear =>
    exact unsent_of_eq rfl

theorem Loop.unsent (loop : Loop m m') : m.Unsent m' := by
  cases loop <;> exact unsent_of_eq rfl

theorem step_unsent {a : Action} (taken : m.step a = some m') (other : ∀ d depth, a ≠ .startDispatch d depth) :
    m.Unsent m' :=
  step_preserves (I := m.Unsent) taken (fun _ move => move.unsent other) (fun _ _ loop kept => kept.trans loop.unsent)

end Unsent

/-! ### What a step writes -/

/-- What the step `a` from `m` to `m'` has written, if anything. -/
inductive Writes (m : Master) (a : Action) (m' : Master) : Prop
  | nothing : m'.written a = none → m.Unsent m' → Writes m a m'
  | reply {l : LinkId} {link : Link} {message response : Message} {now : Time} {ws : WorkerManager} :
      a = .receive l message now → m.links[l]? = some link → link.pc = .reading →
      (link.workerId = none ∨ m.isCurrentLink l link = true) →
      handleRequest m.workers message now = .ok (response, ws) → m' = m.answered l message response ws now →
      m'.written a = some (l, response) → m.Unsent m' → Writes m a m'
  | task {d : DispatchId} {t : TaskId} {task : Task} {w : WorkerId} {l : LinkId} {depth : Nat} :
      a = .startDispatch d depth →
      m.tasks.get? t = some task → m.connections.get? w = some l →
      encodeMessage depth (taskRequest t task) = .ok (taskRequest t task) →
      m' = (m.startedTask t).writeTask d t task w l → m'.written a = some (l, taskRequest t task) → Writes m a m'

section Writes
variable {m m' : Master} {a : Action} {d : DispatchId} {t : TaskId} {l : LinkId} {depth : Nat}
variable {dispatch : Dispatch} {message : Message} {now : Time}

theorem written_of_unreachable {w : WorkerId} {attempt : Nat} {response : Message}
    (there : m.dispatches[d]? = some dispatch) (outcome : Unreached m d t w attempt response m') :
    m'.written (.startDispatch d depth) = none := by
  obtain ⟨pc, outside, after⟩ := outcome.dispatches
  have moved : m'.dispatches[d]? = some { dispatch with pc } := by
    rw [after, dispatches_setDispatch, if_pos rfl, there, Option.map_some]
  cases pc with
  | sending => cases outside
  | spawned | closing | returned | raised => simp [written, moved]

theorem written_of_raised (there : m.dispatches[d]? = some dispatch) :
    (m.setDispatch d .raised).written (.startDispatch d depth) = none := by
  simp [written, dispatches_setDispatch, there]

theorem written_writeTask {task : Task} {w : WorkerId} (there : m.dispatches[d]? = some dispatch)
    (named : dispatch.taskId = t) (found : m.tasks.get? t = some task) :
    ((m.startedTask t).writeTask d t task w l).written (.startDispatch d depth) = some (l, taskRequest t task) := by
  have moved : ((m.startedTask t).writeTask d t task w l).dispatches[d]? =
      some ⟨t, .sending l w task.attempt false .waiting⟩ := by
    rw [writeTask, dispatches_setDispatch, if_pos rfl]
    simp [modifyLink, startedTask, there, named]
  have running : ((m.startedTask t).writeTask d t task w l).tasks.get? t =
      some { task with status := .running } := by
    have started := get?_startedTask m t t
    rw [if_pos rfl, found] at started
    exact started
  simp only [written, moved, running, Option.map_some]
  rfl

theorem startDispatch_writes (taken : m.step (.startDispatch d depth) = some m') :
    Writes m (.startDispatch d depth) m' := by
  obtain ⟨⟨t, pc⟩, there, turn⟩ := Option.bind_eq_some_iff.mp taken
  simp only [dispatchStep] at turn
  split at turn
  · cases turn
    unfold beginDispatch
    split
    · rename_i task s found started
      obtain ⟨task', found', assigned, rfl⟩ := Scheduler.startTask_ok started
      obtain rfl : task = task' := Option.some.inj (found.symm.trans found')
      split
      · exact .nothing (written_of_raised (m := m.startedTask t) there) (unsent_of_eq rfl)
      · rename_i w owner
        split
        · have outcome := unreachable_outcome (m.startedTask t) d t w task.attempt "no connection"
          exact .nothing (written_of_unreachable (m := m.startedTask t) there outcome) outcome.unsent
        · rename_i l connected
          unfold sendTask
          split
          · rename_i reason failure
            have outcome := unreachable_outcome ((m.startedTask t).popPending l t task.attempt) d t w task.attempt
              reason
            exact .nothing (written_of_unreachable (m := (m.startedTask t).popPending l t task.attempt) there outcome)
              outcome.unsent
          · exact .nothing (written_of_raised (m := (m.startedTask t).popPending l t task.attempt) there)
              (unsent_of_eq rfl)
          · rename_i accepted
            obtain rfl := eq_of_encodeMessage accepted
            exact .task rfl found connected accepted rfl (written_writeTask there rfl found)
    · exact .nothing (written_of_raised there) (unsent_of_eq rfl)
  · cases turn

theorem written_of_links {link : Link} (there : m'.links[l]? = some link)
    (silent : ∀ request response, link.pc ≠ .replying request response) :
    m'.written (.receive l message now) = none := by
  simp only [written, there, Option.map_some]
  split
  · rename_i request response replying
    exact absurd (Option.some.inj replying) (silent request response)
  · rfl

/-- A handler that leaves its loop replies nothing. -/
theorem cleanup_writes {link : Link} (there : m.links[l]? = some link) :
    Writes m (.receive l message now) (m.cleanup l link) := by
  have closing : (m.cleanup l link).links[l]? = some { link with lost := true, pc := .closing } := by
    rw [cleanup_links, links_modifyLink, if_pos rfl, there, Option.map_some]
  exact .nothing (written_of_links closing (fun _ _ same => by cases same)) (unsent_of_eq (cleanup_history m l link))

theorem receive_writes (taken : m.step (.receive l message now) = some m') :
    Writes m (.receive l message now) m' := by
  obtain ⟨link, there, turned⟩ := Option.bind_eq_some_iff.mp taken
  obtain ⟨turn, picked, rfl⟩ := Option.map_eq_some_iff.mp turned
  simp only [handlerTurn] at picked
  split at picked
  · rename_i reading
    obtain rfl := Option.some.inj picked
    unfold handleMessage
    split
    · exact cleanup_writes there
    · rename_i speaks
      split
      · rename_i resolved matched
        have links : resolved.links = m.links ∧ resolved.history = m.history := by
          unfold resolve at matched
          split at matched
          · cases matched
          · split at matched <;> cases matched
            exact ⟨rfl, rfl⟩
        have still : resolved.links[l]? = some link := (congrArg (·[l]?) links.1).trans there
        exact .nothing (written_of_links still fun _ _ same => by cases reading.symm.trans same)
          (unsent_of_eq links.2)
      · split
        · exact cleanup_writes there
        · rename_i response ws handled
          have current : link.workerId = none ∨ m.isCurrentLink l link = true := by
            cases known : link.workerId with
            | none => exact .inl rfl
            | some w => exact .inr (by simpa [known] using speaks)
          refine .reply rfl there reading current handled rfl ?_ (unsent_answered m l message response ws now)
          simp [written, takeTurn, setHandler, links_modifyLink, there]
  · cases picked

/-- Every step writes a TASK, a reply, or nothing. -/
theorem step_writes (taken : m.step a = some m') : Writes m a m' := by
  by_cases starts : ∃ d depth, a = .startDispatch d depth
  · obtain ⟨d, depth, rfl⟩ := starts
    exact startDispatch_writes taken
  · by_cases receives : ∃ l message now, a = .receive l message now
    · obtain ⟨l, message, now, rfl⟩ := receives
      exact receive_writes taken
    · refine .nothing ?_ (step_unsent taken fun d depth same => starts ⟨d, depth, same⟩)
      unfold written
      split
      · exact absurd ⟨_, _, _, rfl⟩ receives
      · exact absurd ⟨_, _, rfl⟩ starts
      · rfl

end Writes

/-! ### The work of a task -/

/-- The tasks of `m` are still there in `m'`, with the same type and payload. -/
def KeepsWork (m m' : Master) : Prop :=
  ∀ t task, m.tasks.get? t = some task → ∃ task', m'.tasks.get? t = some task' ∧
    task'.taskType = task.taskType ∧ task'.payload = task.payload

section KeepsWork
variable {m m' m'' : Master} {a : Action}

theorem KeepsWork.trans (first : m.KeepsWork m') (second : m'.KeepsWork m'') : m.KeepsWork m'' := by
  intro t task found
  obtain ⟨task', found', type', payload'⟩ := first t task found
  obtain ⟨task'', found'', type'', payload''⟩ := second t task' found'
  exact ⟨task'', found'', type''.trans type', payload''.trans payload'⟩

theorem Micro.keepsWork (move : Micro m a m') : m.KeepsWork m' := by
  intro t task found
  obtain ⟨task', found', change⟩ := move.retask found
  refine ⟨task', found', ?_⟩
  cases change with
  | same | started | finished => exact ⟨rfl, rfl⟩
  | requeued => exact ⟨by unfold Task.takenBack; split <;> rfl, by unfold Task.takenBack; split <;> rfl⟩

theorem Loop.keepsWork (loop : Loop m m') : m.KeepsWork m' := by
  intro t task found
  cases loop with
  | @grant u w _ _ _ _ _ _ =>
    have granted : (m.scheduler.grant u w).tasks.get? t = (m.tasks.get? t).map (fun task => if t = u then
        { task with attempt := task.attempt + 1, assignedWorkerId := some w, status := .assigned } else task) := by
      simp only [Scheduler.grant, Dict.get?_modify]
      split <;> simp [Master.tasks]
    refine ⟨_, granted.trans (by rw [found]; rfl), ?_⟩
    split <;> exact ⟨rfl, rfl⟩
  | spawn | loops => exact ⟨task, found, rfl, rfl⟩

theorem step_keepsWork (taken : m.step a = some m') : m.KeepsWork m' :=
  step_preserves (I := m.KeepsWork) taken (fun _ move => move.keepsWork)
    (fun _ _ loop kept => kept.trans loop.keepsWork)

end KeepsWork
end Master
end DistributedCompute
