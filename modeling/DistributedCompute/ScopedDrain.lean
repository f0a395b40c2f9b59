import DistributedCompute.Outcomes
import DistributedCompute.Raising

/-! What a caller of `drain_tasks_for(S)` gets back for its own tasks. As long as
nobody else assigns a task of `S`, at most one call for it is under way, in the
batch the drain waits for, and the responses the drain holds end with the answer
of the task's current attempt. The unscoped sweep of the failure monitor is the
one loop that can assign a task of `S` behind the drain's back. -/
namespace DistributedCompute
open Py Raising Relation Transition

/-- The response is that of the task's current attempt, and no error where the
task is COMPLETED. -/
def Message.Answers (t : TaskId) (task : Task) (response : Message) : Prop :=
  response.about t = true ∧ response.requestId = attemptRequestId t task.attempt ∧
    (task.status = .completed → response.isSuccess = true)

/-- `Dispatch.failReply` on the program counter. -/
def DispatchPc.failReply (reason : String) : DispatchPc → DispatchPc
  | .sending l w attempt drained .waiting => .sending l w attempt drained (.failed reason)
  | pc => pc

theorem failReply_eq (reason : String) (t : TaskId) (pc : DispatchPc) :
    Dispatch.failReply reason ⟨t, pc⟩ = ⟨t, pc.failReply reason⟩ := by
  unfold Dispatch.failReply DispatchPc.failReply
  split <;> simp_all

/-- What the program counter of the one call for `t` says about the task. -/
def Stage (t : TaskId) (task : Task) : DispatchPc → Prop
  | .sending _ _ attempt _ reply => attempt = task.attempt ∧ task.status ≠ .completed ∧
      ∀ response, reply = .message response → response.about t = true
  | .closing _ _ response | .returned response => task.status.inFlight = false ∧ response.Answers t task
  | .spawned | .raised => True

/-- What the responses say about a task without a call. -/
def Idle (t : TaskId) (task : Task) (responses : List Message) : Prop :=
  task.status.inFlight = false ∧
    (task.status.terminal = true → ∃ response, lastAnswer t responses = some response ∧ response.Answers t task)

/-- Requeueing may have taken the task back from its worker. -/
def Task.Kept (task task' : Task) : Prop :=
  task' = task ∨ task.status.inFlight = true ∧ task' = task.takenBack

/-- `calls` holds the program counters of the calls for `t`: those outside the
batch are over, and at most one is in it. -/
structure Tally (t : TaskId) (task : Task) (calls : DispatchId → Option DispatchPc) (batch : List DispatchId)
    (responses : List Message) : Prop where
  staged : ∀ d pc, d ∈ batch → calls d = some pc → Stage t task pc
  ended : ∀ d pc, d ∉ batch → calls d = some pc → pc.ended = true
  alone : ∀ d e, d ∈ batch → e ∈ batch → (calls d).isSome = true → (calls e).isSome = true → d = e
  idle : (∀ d ∈ batch, calls d = none) → Idle t task responses

theorem takenBack_not_completed (task : Task) : task.takenBack.status ≠ .completed := by
  simp only [Task.takenBack]
  split <;> simp

theorem Stage.kept {t : TaskId} {task task' : Task} {pc : DispatchPc} (stage : Stage t task pc)
    (kept : task.Kept task') : Stage t task' pc := by
  rcases kept with rfl | ⟨inFlight, rfl⟩
  · exact stage
  · cases pc with
    | sending l w attempt drained reply => exact ⟨stage.1, takenBack_not_completed task, stage.2.2⟩
    | closing w attempt response => exact absurd stage.1 (by simp [inFlight])
    | returned response => exact absurd stage.1 (by simp [inFlight])
    | spawned => trivial
    | raised => trivial

namespace Tally
variable {t : TaskId} {task task' : Task} {calls : DispatchId → Option DispatchPc} {batch : List DispatchId}
  {responses : List Message}

theorem kept (tally : Tally t task calls batch responses) (kept : task.Kept task') :
    Tally t task' calls batch responses where
  staged := fun d pc member there => (tally.staged d pc member there).kept kept
  ended := tally.ended
  alone := tally.alone
  idle := by
    intro none
    have idle := tally.idle none
    rcases kept with rfl | ⟨inFlight, _⟩
    · exact idle
    · exact absurd idle.1 (by simp [inFlight])

/-- A change of program counters that none of the conditions notices. -/
theorem map (tally : Tally t task calls batch responses) (f : DispatchId → DispatchPc → DispatchPc)
    (stage : ∀ d pc, Stage t task pc → Stage t task (f d pc))
    (ended : ∀ d pc, pc.ended = true → (f d pc).ended = true) :
    Tally t task (fun d => (calls d).map (f d)) batch responses where
  staged := by
    intro d pc member there
    obtain ⟨old, before, rfl⟩ := Option.map_eq_some_iff.mp there
    exact stage d old (tally.staged d old member before)
  ended := by
    intro d pc outside there
    obtain ⟨old, before, rfl⟩ := Option.map_eq_some_iff.mp there
    exact ended d old (tally.ended d old outside before)
  alone := by
    intro d e mine other first second
    exact tally.alone d e mine other (by simpa using first) (by simpa using second)
  idle := fun none => tally.idle (fun d member => by simpa using none d member)

/-- A call that is under way moves on, and its task with it. -/
theorem advance (tally : Tally t task calls batch responses) {d : DispatchId} {pc pc' : DispatchPc}
    (there : calls d = some pc) (live : pc.ended = false) (stage : Stage t task pc → Stage t task' pc') :
    Tally t task' (Function.update calls d (some pc')) batch responses := by
  have member : d ∈ batch := by
    by_contra outside
    rw [tally.ended d pc outside there] at live
    cases live
  have same : ∀ e, (Function.update calls d (some pc') e).isSome = (calls e).isSome := by
    intro e
    by_cases mine : e = d
    · rw [mine, Function.update_self, there]
      rfl
    · rw [Function.update_of_ne mine]
  refine ⟨?_, ?_, ?_, ?_⟩
  · intro e pcE memberE thereE
    have mine : e = d := by
      refine tally.alone e d memberE member ?_ (by rw [there]; rfl)
      rw [← same, thereE]
      rfl
    rw [mine, Function.update_self, Option.some.injEq] at thereE
    rw [← thereE]
    exact stage (tally.staged d pc member there)
  · intro e pcE outside thereE
    have other : e ≠ d := fun mine => outside (mine ▸ member)
    rw [Function.update_of_ne other] at thereE
    exact tally.ended e pcE outside thereE
  · intro e f memberE memberF isE isF
    rw [same] at isE isF
    exact tally.alone e f memberE memberF isE isF
  · intro none
    have gone := none d member
    rw [Function.update_self] at gone
    cases gone

end Tally

namespace Master

/-- The program counter of call `d`, if it is one for `t`. -/
def call (m : Master) (t : TaskId) (d : DispatchId) : Option DispatchPc :=
  (m.dispatches[d]?).bind (fun dispatch => if dispatch.taskId = t then some dispatch.pc else none)

variable {m mid m' : Master} {t : TaskId} {d : DispatchId} {responses : List Message} {a : Action}

theorem call_eq_some {pc : DispatchPc} :
    m.call t d = some pc ↔ m.dispatches[d]? = some ⟨t, pc⟩ := by
  unfold call
  rcases m.dispatches[d]? with _ | ⟨u, old⟩
  · simp
  · by_cases same : u = t <;> simp [same]

theorem call_setDispatch (m : Master) (t u : TaskId) (d : DispatchId) {old : DispatchPc} (pc : DispatchPc)
    (there : m.dispatches[d]? = some ⟨u, old⟩) :
    (m.setDispatch d pc).call t = if u = t then Function.update (m.call t) d (some pc) else m.call t := by
  funext e
  by_cases mine : e = d
  · subst mine
    by_cases same : u = t <;> simp [call, dispatches_setDispatch, there, same]
  · by_cases same : u = t <;> simp [call, dispatches_setDispatch, mine, same, Function.update_of_ne]

/-- The books of a drain on task `t` are in order. -/
def Tallied (m : Master) (batch : List DispatchId) (responses : List Message) (t : TaskId) : Prop :=
  ∃ task, m.tasks.get? t = some task ∧ Tally t task (m.call t) batch responses

/-- Task `t` is as it was, unless it was taken back from its worker. -/
def Keeps (m m' : Master) (t : TaskId) : Prop :=
  ∀ task, m.tasks.get? t = some task → ∃ task', m'.tasks.get? t = some task' ∧ task.Kept task'

section Tallied
variable {m m' : Master} {batch : List DispatchId} {responses : List Message} {t u : TaskId} {d : DispatchId}
  {pc pc' : DispatchPc}

theorem keeps_of_eq (same : m'.tasks.get? t = m.tasks.get? t) : m.Keeps m' t :=
  fun task found => ⟨task, same.trans found, .inl rfl⟩

theorem keeps_of_requeue {held : Task → Prop} [DecidablePred held]
    (requeued : m'.tasks.get? t = (m.tasks.get? t).map (fun task => if held task then task.takenBack else task))
    (inFlight : ∀ task, held task → task.status.inFlight = true) : m.Keeps m' t := by
  intro task found
  rw [found, Option.map_some] at requeued
  refine ⟨_, requeued, ?_⟩
  split
  · rename_i mine
    exact .inr ⟨inFlight task mine, rfl⟩
  · exact .inl rfl

theorem Tallied.keeps (tallied : m.Tallied batch responses t) (keeps : m.Keeps m' t)
    (calls : m'.call t = m.call t) : m'.Tallied batch responses t := by
  obtain ⟨task, found, tally⟩ := tallied
  obtain ⟨task', found', kept⟩ := keeps task found
  exact ⟨task', found', calls ▸ tally.kept kept⟩

/-- One call moves on: for its own task the stage has to fit, the other tasks
are at most taken back. -/
theorem Tallied.moves (tallied : m.Tallied batch responses t) (there : m.dispatches[d]? = some ⟨u, pc⟩)
    (live : pc.ended = false) (after : m'.dispatches = (m.setDispatch d pc').dispatches)
    (other : u ≠ t → m.Keeps m' t)
    (own : u = t → ∀ task, m.tasks.get? t = some task → Stage t task pc →
      ∃ task', m'.tasks.get? t = some task' ∧ Stage t task' pc') : m'.Tallied batch responses t := by
  have calls : m'.call t = (m.setDispatch d pc').call t := by
    funext e
    simp only [call, after]
  rw [call_setDispatch m t u d pc' there] at calls
  by_cases same : u = t
  · subst same
    obtain ⟨task, found, tally⟩ := tallied
    rw [if_pos rfl] at calls
    have mine : m.call u d = some pc := call_eq_some.mpr there
    have member : d ∈ batch := by
      by_contra outside
      rw [tally.ended d pc outside mine] at live
      cases live
    obtain ⟨task', found', stage⟩ := own rfl task found (tally.staged d pc member mine)
    exact ⟨task', found', calls ▸ tally.advance mine live (fun _ => stage)⟩
  · exact tallied.keeps (other same) (by rw [calls, if_neg same])

/-- A call raises, or goes on without touching a task. -/
theorem Tallied.setDispatch (tallied : m.Tallied batch responses t) (there : m.dispatches[d]? = some ⟨u, pc⟩)
    (live : pc.ended = false) (after : m'.dispatches = (m.setDispatch d pc').dispatches)
    (tasks : m'.tasks = m.tasks) (stage : ∀ task, Stage u task pc → Stage u task pc') :
    m'.Tallied batch responses t := by
  refine tallied.moves there live after (fun _ => keeps_of_eq (by rw [tasks])) ?_
  rintro rfl task found staged
  exact ⟨task, by rw [tasks]; exact found, stage task staged⟩

theorem Tallied.started {task : Task} (tallied : m.Tallied batch responses t)
    (spawned : m.dispatches[d]? = some ⟨u, .spawned⟩) (found : m.tasks.get? u = some task) :
    (m.startedTask u).Tallied batch responses t := by
  have after : (m.startedTask u).dispatches = (m.setDispatch d .spawned).dispatches := by
    refine List.ext_getElem? fun e => ?_
    rw [dispatches_setDispatch]
    split
    · rename_i mine
      rw [mine, spawned]
      exact spawned
    · rfl
  refine tallied.moves spawned rfl after ?_ ?_
  · intro apart
    exact keeps_of_eq (by rw [get?_startedTask, if_neg (Ne.symm apart)])
  · rintro rfl _ _ _
    exact ⟨{ task with status := .running }, by rw [get?_startedTask, if_pos rfl, found]; rfl, trivial⟩

/-- Call `d` for the given attempt at `u` is through with its worker. -/
def ComesBack (m m' : Master) (d : DispatchId) (u : TaskId) (attempt : Nat) (response : Message) : Prop :=
  ∃ pc, m'.dispatches = (m.setDispatch d pc).dispatches ∧ (∀ t, u ≠ t → m.Keeps m' t) ∧
    ∀ task, m.tasks.get? u = some task → attempt = task.attempt → task.status ≠ .completed →
      response.about u = true → ∃ task', m'.tasks.get? u = some task' ∧ Stage u task' pc

variable {attempt : Nat} {response : Message} {w : WorkerId}

theorem Tallied.comesBack (tallied : m.Tallied batch responses t) (there : m.dispatches[d]? = some ⟨u, pc⟩)
    (live : pc.ended = false) (current : ∀ task, m.tasks.get? u = some task → Stage u task pc →
      attempt = task.attempt ∧ task.status ≠ .completed ∧ response.about u = true)
    (back : ComesBack m m' d u attempt response) : m'.Tallied batch responses t := by
  obtain ⟨pc', after, other, own⟩ := back
  refine tallied.moves there live after (other t) ?_
  rintro rfl task found stage
  obtain ⟨same, ongoing, about⟩ := current task found stage
  exact own task found same ongoing about

/-- An attempt that is no longer current was taken back from its worker. -/
theorem idle_of_late {task : Task} (owned : m.Owned)
    (sound : Lease.Sound (leaseRules u) (m.working u d w task.attempt)) (found : m.tasks.get? u = some task)
    (late : m.isCurrentAttempt u w task.attempt = false) :
    task.status.inFlight = false := by
  obtain ⟨status, owner, attempt⟩ := lease_of_task found
  have holder : (m.working u d w task.attempt).holders d = some (.working w task.attempt) :=
    Function.update_self ..
  obtain ⟨_, free | ⟨_, mine⟩⟩ := (sound.working d w task.attempt holder).2 attempt.symm
  · by_contra inFlight
    obtain ⟨v, held, _⟩ := owned u task found (by simpa using inFlight)
    have none : task.assignedWorkerId = none := owner.symm.trans free
    rw [none] at held
    cases held
  · have current : m.isCurrentAttempt u w task.attempt = true :=
      isCurrentAttempt_iff.mpr ⟨task, found, owner.symm.trans mine, rfl⟩
    rw [late] at current
    cases current

theorem comesBack_of_late (owned : m.Owned) (sound : Lease.Sound (leaseRules u) (m.working u d w attempt))
    (belongs : response.requestId = attemptRequestId u attempt) (late : m.isCurrentAttempt u w attempt = false) :
    ComesBack m (m.setDispatch d (.returned response)) d u attempt response := by
  refine ⟨.returned response, rfl, fun t _ => keeps_of_eq rfl, ?_⟩
  rintro task found rfl ongoing about
  exact ⟨task, found, idle_of_late owned sound found late, about, belongs,
    fun completed => absurd completed ongoing⟩

theorem Unreached.comesBack (owned : m.Owned) (sound : Lease.Sound (leaseRules u) (m.working u d w attempt))
    (belongs : response.requestId = attemptRequestId u attempt) (outcome : Unreached m d u w attempt response m') :
    ComesBack m m' d u attempt response := by
  cases outcome with
  | late late => exact comesBack_of_late owned sound belongs late
  | unknown _ _ => exact ⟨.raised, rfl, fun t _ => keeps_of_eq rfl, fun task found _ _ _ => ⟨task, found, trivial⟩⟩
  | condemned current _ =>
    have tasks : ∀ t, (((m.condemnedWorker w).recordIfTerminal u response).setDispatch d
        (.returned response)).tasks.get? t = (m.tasks.get? t).map (Task.requeued w) := by
      intro t
      rw [← get?_condemnedWorker, Master.tasks, Master.setDispatch]
      simp only [recordIfTerminal_scheduler]
    refine ⟨.returned response, ?_, fun t _ => keeps_of_requeue (tasks t) (fun _ held => held.2), ?_⟩
    · simp only [Master.setDispatch, recordIfTerminal_dispatches]
      rfl
    · rintro task found rfl _ about
      obtain ⟨task', found', owner, _, running⟩ := running_of_isCurrentAttempt sound current
      obtain rfl : task = task' := Option.some.inj (found.symm.trans found')
      refine ⟨task.takenBack, ?_, Scheduler.takenBack_inFlight task, about, belongs,
        fun completed => absurd completed (takenBack_not_completed task)⟩
      rw [tasks, found, Option.map_some, Task.requeued, if_pos ⟨owner, by rw [running]; rfl⟩]

theorem Settled.comesBack (owned : m.Owned) (sound : Lease.Sound (leaseRules u) (m.working u d w attempt))
    (belongs : response.requestId = attemptRequestId u attempt) (outcome : Settled m d u w attempt response m') :
    ComesBack m m' d u attempt response := by
  cases outcome with
  | late late => exact comesBack_of_late owned sound belongs late
  | malformed => exact ⟨.raised, rfl, fun t _ => keeps_of_eq rfl, fun task found _ _ _ => ⟨task, found, trivial⟩⟩
  | unknown status _ _ _ =>
    have tasks : ∀ t, ({ m with scheduler := m.scheduler.setTaskStatus u status }.setDispatch d
        .raised).tasks.get? t = _ := fun t => Scheduler.get?_setTaskStatus m.scheduler u t status
    refine ⟨.raised, rfl, fun t apart => keeps_of_eq ?_,
      fun task found _ _ _ => ⟨{ task with status }, ?_, trivial⟩⟩
    · rw [tasks, if_neg (Ne.symm apart)]
    · rw [tasks, if_pos rfl]
      exact congrArg _ found
  | settled _ _ =>
    obtain ⟨pc, kind, after⟩ := closeIfDraining_dispatches (m.finishedTask u w response) d u w attempt response
    have tasks : ∀ t, ((m.finishedTask u w response).closeIfDraining d u w attempt response).tasks.get? t =
        (m.finishedTask u w response).tasks.get? t := by
      intro t
      rw [Master.tasks, closeIfDraining_scheduler]
    refine ⟨pc, after, fun t apart => keeps_of_eq ?_, ?_⟩
    · rw [tasks, get?_finishedTask, if_neg (Ne.symm apart)]
    · rintro task found rfl _ about
      refine ⟨{ task with status := if response.isSuccess then .completed else .failed }, ?_, ?_⟩
      · rw [tasks, get?_finishedTask, if_pos rfl, found]
        rfl
      · have stage : ∀ success : Bool, response.isSuccess = success →
            (if success then TaskStatus.completed else .failed).inFlight = false ∧ response.Answers u
              { task with status := if success then .completed else .failed } := by
          rintro (_ | _) success
          · exact ⟨rfl, about, belongs, fun completed => by cases completed⟩
          · exact ⟨rfl, about, belongs, fun _ => success⟩
        rcases kind with rfl | rfl <;> exact stage _ rfl

theorem about_workerUnreachable (t : TaskId) (attempt : Nat) (reason : String) :
    (workerUnreachable t attempt reason).about t = true := by
  simp [Message.about, workerUnreachable, buildMessage, Message.get?, field]

theorem Tallied.unreachable {reason : String} (tallied : m.Tallied batch responses t) (owned : m.Owned)
    (sound : Lease.Sound (leaseRules u) (m.working u d w attempt)) (there : m.dispatches[d]? = some ⟨u, pc⟩)
    (live : pc.ended = false) (current : ∀ task, m.tasks.get? u = some task → Stage u task pc →
      attempt = task.attempt ∧ task.status ≠ .completed) :
    (m.unreachable d u w attempt reason).Tallied batch responses t := by
  refine tallied.comesBack there live ?_ ((unreachable_outcome m d u w attempt reason).comesBack owned sound rfl)
  intro task found stage
  obtain ⟨same, ongoing⟩ := current task found stage
  exact ⟨same, ongoing, about_workerUnreachable u attempt reason⟩

/-- A call on its way that fails for its link. -/
theorem Tallied.lost {l : LinkId} {drained : Bool} {reply : Reply} {reason : String}
    (tallied : m.Tallied batch responses t) (fenced : m.Fenced)
    (there : m.dispatches[d]? = some ⟨u, .sending l w attempt drained reply⟩) :
    ((m.popPending l u attempt).unreachable d u w attempt reason).Tallied batch responses t :=
  Tallied.unreachable (m := m.popPending l u attempt) tallied fenced.base.owned (fenced.working there) there rfl
    (fun _ _ stage => ⟨stage.1, stage.2.1⟩)

end Tallied

/-- The call whose future the action resolves, with the message that does. -/
def awaiting (m : Master) : Action → Option (Dispatch × Message)
  | .receive l message _ =>
    (((m.links[l]?).bind (fun link => link.pending.get? message.requestId)).bind (fun d => m.dispatches[d]?)).map
      (fun dispatch => (dispatch, message))
  | _ => none

/-- A reply to a call for `t` names `t`, as `serve_tasks` writes it. -/
def repliesNamed (m : Master) (t : TaskId) (a : Action) : Prop :=
  ∀ answered ∈ m.awaiting a, answered.1.taskId = t → answered.2.about t = true

instance (m : Master) (t : TaskId) (a : Action) : Decidable (m.repliesNamed t a) :=
  inferInstanceAs (Decidable (∀ answered ∈ m.awaiting a, _ → _))

theorem call_cleanup (m : Master) (l : LinkId) (link : Link) (t : TaskId) :
    (m.cleanup l link).call t = fun d => (m.call t d).map (fun pc =>
      if d ∈ link.pending.values then pc.failReply "Worker connection closed" else pc) := by
  funext d
  simp only [call, cleanup_dispatches, dispatches_failPending]
  rcases m.dispatches[d]? with _ | ⟨u, pc⟩
  · rfl
  · by_cases pending : d ∈ link.pending.values
    · by_cases same : u = t <;> simp [pending, failReply_eq, same]
    · by_cases same : u = t <;> simp [pending, same]

theorem Tallied.cleanup {batch : List DispatchId} (tallied : m.Tallied batch responses t) (l : LinkId) (link : Link) :
    (m.cleanup l link).Tallied batch responses t := by
  obtain ⟨task, found, tally⟩ := tallied
  refine ⟨task, by rw [cleanup_tasks]; exact found, ?_⟩
  rw [call_cleanup]
  refine tally.map _ ?_ ?_
  · intro d pc stage
    split
    · unfold DispatchPc.failReply
      split
      · exact ⟨stage.1, stage.2.1, nofun⟩
      · exact stage
    · exact stage
  · intro d pc ended
    split
    · cases pc <;> simp_all [DispatchPc.failReply, DispatchPc.ended]
    · exact ended

/-- Every move keeps the books on a task whose replies carry its name. -/
theorem Micro.tallied (fenced : m.Fenced) (move : Micro m a mid) {batch : List DispatchId}
    (named : m.repliesNamed t a) (tallied : m.Tallied batch responses t) : mid.Tallied batch responses t := by
  have owned := fenced.base.owned
  have running : ∀ {u : TaskId} {task task' : Task}, m.tasks.get? u = some task →
      (m.startedTask u).tasks.get? u = some task' → task.attempt = task'.attempt ∧ task'.status ≠ .completed := by
    intro u task task' found later
    rw [get?_startedTask, if_pos rfl, found] at later
    cases later
    exact ⟨rfl, by simp⟩
  cases move with
  | @submit u taskType payload absent =>
    refine tallied.keeps (fun task found => ⟨task, ?_, .inl rfl⟩) rfl
    rw [get?_submittedTask, if_neg, found]
    rintro rfl
    rw [found] at absent
    cases absent
  | cleanup _ _ _ _ => exact tallied.cleanup _ _
  | @resolve l link message now d u k w attempt drained there pending waiting =>
    refine tallied.moves waiting rfl rfl (fun _ => keeps_of_eq rfl) ?_
    rintro rfl task found stage
    refine ⟨task, found, stage.1, stage.2.1, ?_⟩
    rintro response received
    cases received
    exact named (⟨u, .sending k w attempt drained .waiting⟩, message)
      (by simp [awaiting, there, pending, waiting]) rfl
  | install _ _ =>
    exact tallied.keeps (keeps_of_eq (by rw [tasks, install_scheduler])) (by unfold call; rw [install_dispatches])
  | startRaises spawned _ => exact tallied.setDispatch spawned rfl rfl rfl (fun _ _ => trivial)
  | orphan _ found assigned owner =>
    obtain ⟨w, mine, _⟩ := owned _ _ found (by rw [assigned]; rfl)
    rw [owner] at mine
    cases mine
  | @unreached d u task w _ spawned found assigned owner _ =>
    have claims : Lease.Move (leaseRules u) True (m.lease u) _ := lease_claimed spawned found assigned owner
    exact (tallied.started spawned found).unreachable (owned.of_settles (settles_startedTask found assigned))
      ((fenced.leases u).step claims) spawned rfl (fun _ later _ => running found later)
  | @unencodable d u task w l _ reason spawned found assigned owner _ _ =>
    have claims : Lease.Move (leaseRules u) True (m.lease u) _ := lease_claimed spawned found assigned owner
    exact Tallied.unreachable (m := (m.startedTask u).popPending l u task.attempt)
      (tallied.started spawned found) (owned.of_settles (settles_startedTask found assigned))
      ((fenced.leases u).step claims) spawned rfl (fun _ later _ => running found later)
  | @overflow d u task w l _ spawned found assigned owner _ _ =>
    refine Tallied.moves (m := (m.startedTask u).popPending l u task.attempt) (tallied.started spawned found)
      spawned rfl rfl (fun _ => keeps_of_eq rfl) ?_
    exact fun _ task' later _ => ⟨task', later, trivial⟩
  | @write d u task w l _ spawned found assigned owner _ =>
    refine (tallied.started spawned found).moves spawned rfl rfl (fun _ => keeps_of_eq rfl) ?_
    rintro rfl task' later _
    obtain ⟨same, ongoing⟩ := running found later
    exact ⟨task', later, same, ongoing, fun _ received => by cases received⟩
  | drained there => exact tallied.setDispatch there rfl rfl rfl (fun _ stage => stage)
  | sendLost there _ _ => exact tallied.lost fenced there
  | replyLost there => exact tallied.lost fenced there
  | @replied d u l w attempt response there =>
    have sound := fenced.working there
    exact Tallied.comesBack (m := m.popPending l u attempt) tallied there rfl
      (fun _ _ stage => ⟨stage.1, stage.2.1, stage.2.2 response rfl⟩)
      ((handleReply_outcome (m.popPending l u attempt) d u w attempt response).comesBack owned sound
        (fenced.base.wired.replies d u l w attempt true response there))
  | abort there => exact tallied.setDispatch there rfl rfl rfl (fun _ _ => trivial)
  | @finish d u w attempt response there =>
    exact tallied.setDispatch there rfl (finishDispatch_dispatches m d u response)
      (by rw [tasks, finishDispatch_scheduler]) (fun _ stage => stage)
  | abandon there => exact tallied.setDispatch there rfl rfl rfl (fun _ _ => trivial)
  | @stale i now _ =>
    exact tallied.keeps (keeps_of_requeue (Scheduler.get?_condemnStale m.scheduler heartbeatTimeout now t)
      (fun _ held => held.2)) rfl
  | skip | accept | lose | handle | handler | clear => exact tallied.keeps (keeps_of_eq rfl) rfl

/-! ### What no move touches -/

/-- The drains are as they were, and so is the task of every call. -/
def SameLoops (m m' : Master) : Prop :=
  m'.drains = m.drains ∧ m'.dispatches.map Dispatch.taskId = m.dispatches.map Dispatch.taskId

theorem sameLoops_setDispatch (drains : m'.drains = m.drains) {pc : DispatchPc}
    (after : m'.dispatches = (m.setDispatch d pc).dispatches) : SameLoops m m' := by
  refine ⟨drains, List.ext_getElem? fun e => ?_⟩
  rw [after, List.getElem?_map, List.getElem?_map, dispatches_setDispatch]
  split
  · rw [Option.map_map]
    rfl
  · rfl

theorem recordIfTerminal_drains (m : Master) (t : TaskId) (response : Message) :
    (m.recordIfTerminal t response).drains = m.drains := by
  unfold recordIfTerminal
  split
  · split <;> rfl
  · rfl

theorem closeIfDraining_drains (m : Master) (d : DispatchId) (t : TaskId) (w : WorkerId) (attempt : Nat)
    (response : Message) : (m.closeIfDraining d t w attempt response).drains = m.drains := by
  unfold closeIfDraining
  split
  · split
    · rfl
    · exact recordIfTerminal_drains m t response
  · exact recordIfTerminal_drains m t response

theorem Unreached.sameLoops {w : WorkerId} {attempt : Nat} {response : Message}
    (outcome : Unreached m d t w attempt response m') : SameLoops m m' := by
  cases outcome with
  | late _ => exact sameLoops_setDispatch rfl rfl
  | unknown _ _ => exact sameLoops_setDispatch rfl rfl
  | condemned _ _ =>
    exact sameLoops_setDispatch (recordIfTerminal_drains (m.condemnedWorker w) t response)
      (finishDispatch_dispatches (m.condemnedWorker w) d t response)

theorem Settled.sameLoops {w : WorkerId} {attempt : Nat} {response : Message}
    (outcome : Settled m d t w attempt response m') : SameLoops m m' := by
  cases outcome with
  | late _ => exact sameLoops_setDispatch rfl rfl
  | malformed => exact sameLoops_setDispatch rfl rfl
  | unknown _ _ _ _ => exact sameLoops_setDispatch rfl rfl
  | settled _ _ =>
    obtain ⟨pc, _, after⟩ := closeIfDraining_dispatches (m.finishedTask t w response) d t w attempt response
    exact sameLoops_setDispatch (closeIfDraining_drains (m.finishedTask t w response) d t w attempt response) after

theorem sameLoops_cleanup (m : Master) (l : LinkId) (link : Link) : SameLoops m (m.cleanup l link) := by
  constructor
  · simp only [cleanup]
    split
    · split <;> rfl
    · rfl
  · refine List.ext_getElem? fun d => ?_
    rw [List.getElem?_map, List.getElem?_map, cleanup_dispatches, dispatches_failPending, Option.map_map]
    congr 1
    funext dispatch
    simp only [Function.comp_apply, Dispatch.failReply]
    split
    · split <;> rfl
    · rfl

theorem Micro.sameLoops (move : Micro m a mid) : SameLoops m mid := by
  cases move with
  | cleanup _ _ _ _ => exact sameLoops_cleanup m _ _
  | @install l _ w _ _ =>
    refine ⟨?_, by rw [install_dispatches]⟩
    simp only [Master.install]
    split
    · split <;> rfl
    · rfl
  | unreached _ _ _ _ _ => exact (unreachable_outcome (m.startedTask _) _ _ _ _ _).sameLoops
  | unencodable _ _ _ _ _ _ =>
    exact (unreachable_outcome ((m.startedTask _).popPending _ _ _) _ _ _ _ _).sameLoops
  | sendLost _ _ _ => exact (unreachable_outcome (m.popPending _ _ _) _ _ _ _ _).sameLoops
  | replyLost _ => exact (unreachable_outcome (m.popPending _ _ _) _ _ _ _ _).sameLoops
  | replied _ => exact (handleReply_outcome (m.popPending _ _ _) _ _ _ _ _).sameLoops
  | finish _ => exact sameLoops_setDispatch (recordIfTerminal_drains m _ _) (finishDispatch_dispatches m _ _ _)
  | resolve | startRaises | orphan | overflow | write | drained | abort | abandon =>
    exact sameLoops_setDispatch rfl rfl
  | skip | submit | accept | lose | handle | handler | stale | clear => exact ⟨rfl, rfl⟩

/-! ### The batch of a drain -/

/-- The batch holds calls for tasks of `S` only, and the books on `S` are in order. -/
structure Ledger (m : Master) (S : List TaskId) (batch : List DispatchId) (responses : List Message) : Prop where
  within : ∀ d ∈ batch, ∃ t ∈ S, (m.call t d).isSome = true
  tallied : ∀ t ∈ S, m.Tallied batch responses t

theorem call_isSome :
    (m.call t d).isSome = true ↔ (m.dispatches.map Dispatch.taskId)[d]? = some t := by
  rw [List.getElem?_map, call]
  rcases m.dispatches[d]? with _ | dispatch
  · simp
  · by_cases same : dispatch.taskId = t <;> simp [same]

theorem Ledger.micro {S : List TaskId} {batch : List DispatchId} (ledger : m.Ledger S batch responses)
    (fenced : m.Fenced) (move : Micro m a mid) (named : ∀ t ∈ S, m.repliesNamed t a) :
    mid.Ledger S batch responses where
  within := by
    simp only [call_isSome, move.sameLoops.2]
    simpa only [call_isSome] using ledger.within
  tallied := fun t mine => move.tallied fenced (named t mine) (ledger.tallied t mine)

section Gather
variable {m : Master} {S : List TaskId} {batch : List DispatchId} {responses results : List Message}

theorem call_of_result {d : DispatchId} {response : Message} {t : TaskId} (result : m.result? d = some response)
    (mine : (m.call t d).isSome = true) : m.call t d = some (.returned response) := by
  obtain ⟨pc, there⟩ := Option.isSome_iff_exists.mp mine
  simp only [result?, dispatchPc, call_eq_some.mp there, Option.map_some] at result
  split at result
  · rename_i returned
    cases result
    rw [there, Option.some.inj returned]
  · cases result

/-- The results of a batch that is through enter the books. -/
theorem Ledger.gathered (ledger : m.Ledger S batch responses) (all : batch.mapM m.result? = some results) :
    m.Ledger S [] (responses ++ results) := by
  obtain ⟨forth, back⟩ := mem_of_mapM all
  refine ⟨nofun, fun t mine => ?_⟩
  obtain ⟨task, found, tally⟩ := ledger.tallied t mine
  -- a result that names `t` is that of a call for `t`
  have source : ∀ response ∈ results, response.about t = true →
      ∃ d ∈ batch, m.call t d = some (.returned response) := by
    intro response held about
    obtain ⟨d, member, result⟩ := back response held
    obtain ⟨u, inScope, called⟩ := ledger.within d member
    have returned := call_of_result result called
    obtain ⟨_, _, books⟩ := ledger.tallied u inScope
    obtain ⟨_, named, _⟩ := books.staged d _ member returned
    rw [about_unique about named]
    exact ⟨d, member, returned⟩
  -- a call for `t` in the batch has returned
  have returned : ∀ d pc, d ∈ batch → m.call t d = some pc →
      ∃ response ∈ results, pc = .returned response := by
    intro d pc member there
    obtain ⟨response, held, result⟩ := forth d member
    rw [call_of_result result (by rw [there]; rfl)] at there
    exact ⟨response, held, (Option.some.inj there).symm⟩
  refine ⟨task, found, nofun, fun d pc _ there => ?_, nofun, fun _ => ?_⟩
  · by_cases member : d ∈ batch
    · obtain ⟨response, _, rfl⟩ := returned d pc member there
      rfl
    · exact tally.ended d pc member there
  · by_cases called : ∃ d ∈ batch, ∃ pc, m.call t d = some pc
    · obtain ⟨d, member, pc, there⟩ := called
      obtain ⟨response, held, rfl⟩ := returned d pc member there
      obtain ⟨idle, answers⟩ := tally.staged d _ member there
      refine ⟨idle, fun _ => ⟨response, ?_, answers⟩⟩
      rw [lastAnswer_append, lastAnswer_of_only held answers.1]
      · rfl
      · intro other also named
        obtain ⟨e, memberE, thereE⟩ := source other also named
        obtain rfl := tally.alone e d memberE member (by rw [thereE]; rfl) (by rw [there]; rfl)
        rw [there] at thereE
        cases thereE
        rfl
    · have unnamed : lastAnswer t results = none := by
        rw [lastAnswer, List.getLast?_eq_none_iff, List.filter_eq_nil_iff]
        intro response held named
        obtain ⟨d, member, there⟩ := source response held named
        exact called ⟨d, member, _, there⟩
      rw [Idle, lastAnswer_append, unnamed, Option.none_or]
      refine tally.idle fun d member => ?_
      rcases there : m.call t d with _ | pc
      · rfl
      · exact absurd ⟨d, member, pc, there⟩ called

end Gather

theorem call_spawn (m : Master) (batch : List TaskId) (t : TaskId) (d : DispatchId) :
    (m.spawn batch).call t d = if d < m.dispatches.length then m.call t d
      else if batch[d - m.dispatches.length]? = some t then some .spawned else none := by
  simp only [call, spawn, List.getElem?_append]
  split
  · rfl
  · rw [List.getElem?_map]
    rcases batch[d - m.dispatches.length]? with _ | u
    · simp
    · by_cases same : u = t <;> simp [same]

theorem mem_spawnedIds {batch : List TaskId} :
    d ∈ m.spawnedIds batch ↔ m.dispatches.length ≤ d ∧ d - m.dispatches.length < batch.length := by
  simp only [spawnedIds, List.mem_map, List.mem_range]
  constructor
  · rintro ⟨k, small, rfl⟩
    exact ⟨Nat.le_add_right _ k, by rw [Nat.add_sub_cancel_left]; exact small⟩
  · rintro ⟨late, small⟩
    exact ⟨d - m.dispatches.length, small, Nat.add_sub_cancel' late⟩

/-- A new batch is assigned and its calls are created. -/
theorem Ledger.assigned {S : List TaskId} {s : Scheduler} {batch : List TaskId} (ledger : m.Ledger S [] responses)
    (made : Scheduler.Batch (some S) m.scheduler batch s) :
    ({ m with scheduler := s }.spawn batch).Ledger S (m.spawnedIds batch) responses := by
  have calls : ∀ t d, ({ m with scheduler := s }.spawn batch).call t d = if d < m.dispatches.length then m.call t d
      else if batch[d - m.dispatches.length]? = some t then some .spawned else none :=
    fun t d => call_spawn { m with scheduler := s } batch t d
  have new : ∀ t d, d ∈ m.spawnedIds batch → ({ m with scheduler := s }.spawn batch).call t d =
      if batch[d - m.dispatches.length]? = some t then some .spawned else none := by
    intro t d member
    rw [calls, if_neg (Nat.not_lt.mpr (mem_spawnedIds.mp member).1)]
  refine ⟨fun d member => ?_, fun t mine => ?_⟩
  · obtain ⟨_, small⟩ := mem_spawnedIds.mp member
    refine ⟨batch[d - m.dispatches.length], ?_, ?_⟩
    · simpa [Scheduler.inScope] using (made.pending (List.getElem_mem small)).1
    · rw [new _ d member, if_pos (List.getElem?_eq_getElem small)]
      rfl
  · obtain ⟨task, found, tally⟩ := ledger.tallied t mine
    obtain ⟨task', found'⟩ := made.found found
    refine ⟨task', found', ?_, ?_, ?_, ?_⟩
    · intro d pc member there
      rw [new t d member] at there
      split at there
      · cases there
        trivial
      · cases there
    · intro d pc outside there
      rw [calls] at there
      split at there
      · exact tally.ended d pc List.not_mem_nil there
      · rename_i late
        split at there
        · rename_i created
          obtain ⟨small, _⟩ := List.getElem?_eq_some_iff.mp created
          exact absurd (mem_spawnedIds.mpr ⟨Nat.not_lt.mp late, small⟩) outside
        · cases there
    · intro d e memberD memberE isD isE
      rw [new t d memberD] at isD
      rw [new t e memberE] at isE
      have atD : batch[d - m.dispatches.length]? = some t := by
        by_contra other
        simp [other] at isD
      have atE : batch[e - m.dispatches.length]? = some t := by
        by_contra other
        simp [other] at isE
      obtain ⟨lateD, smallD⟩ := mem_spawnedIds.mp memberD
      obtain ⟨lateE, _⟩ := mem_spawnedIds.mp memberE
      have same := (List.getElem?_inj smallD made.nodup).mp (atD.trans atE.symm)
      rw [← Nat.sub_add_cancel lateD, same, Nat.sub_add_cancel lateE]
    · intro none
      have absent : t ∉ batch := by
        intro member
        obtain ⟨k, small, rfl⟩ := List.getElem_of_mem member
        have member : m.dispatches.length + k ∈ m.spawnedIds batch :=
          mem_spawnedIds.mpr ⟨Nat.le_add_right _ k, by rw [Nat.add_sub_cancel_left]; exact small⟩
        have created := none _ member
        rw [new _ _ member, Nat.add_sub_cancel_left, if_pos (List.getElem?_eq_getElem small)] at created
        cases created
      obtain rfl : task = task' := by
        rw [made.others absent] at found'
        exact Option.some.inj (found.symm.trans found')
      exact tally.idle nofun

/-! ### The other loops -/

/-- The scope names no task of `S`. -/
def leavesOut (S : List TaskId) : Option (List TaskId) → Prop
  | some ids => ∀ t ∈ S, t ∉ ids
  | none => False

instance (S : List TaskId) (scope : Option (List TaskId)) : Decidable (leavesOut S scope) :=
  match scope with
  | some ids => inferInstanceAs (Decidable (∀ t ∈ S, t ∉ ids))
  | none => isFalse id

/-- The drains other than `i` are unscoped or leave `S` out. -/
def Alone (m : Master) (S : List TaskId) (i : DrainId) : Prop :=
  ∀ j drain, j ≠ i → m.drains[j]? = some drain → drain.scope = none ∨ leavesOut S drain.scope

/-- Work of the other loops that touches neither `S` nor drain `i`. -/
structure Spares (S : List TaskId) (i : DrainId) (m m' : Master) : Prop where
  tasks : ∀ t ∈ S, m'.tasks.get? t = m.tasks.get? t
  calls : ∀ t ∈ S, m'.call t = m.call t
  drain : m'.drains[i]? = m.drains[i]?
  alone : m.Alone S i → m'.Alone S i

section Spares
variable {S : List TaskId} {i : DrainId} {m m' m'' : Master}
variable {scope : Option (List TaskId)}

theorem Spares.trans (first : Spares S i m m') (second : Spares S i m' m'') : Spares S i m m'' where
  tasks := fun t mine => (second.tasks t mine).trans (first.tasks t mine)
  calls := fun t mine => (second.calls t mine).trans (first.calls t mine)
  drain := second.drain.trans first.drain
  alone := fun alone => second.alone (first.alone alone)

theorem spares_loops (monitors : List MonitorPc) (dispatcher : Bool) :
    Spares S i m { m with monitors, dispatcher } := ⟨fun _ _ => rfl, fun _ _ => rfl, rfl, id⟩

theorem Ledger.spared {batch : List DispatchId} {responses : List Message} (ledger : m.Ledger S batch responses)
    (spares : Spares S i m m') : m'.Ledger S batch responses where
  within := by
    intro d member
    obtain ⟨t, mine, called⟩ := ledger.within d member
    exact ⟨t, mine, by rw [spares.calls t mine]; exact called⟩
  tallied := fun t mine =>
    (ledger.tallied t mine).keeps (keeps_of_eq (spares.tasks t mine)) (spares.calls t mine)

theorem spares_assigned {batch : List TaskId} {s : Scheduler} (made : Scheduler.Batch scope m.scheduler batch s)
    (outside : ∀ t ∈ S, t ∉ batch) :
    Spares S i m { m with scheduler := s } where
  tasks := fun t mine => made.others (outside t mine)
  calls := fun _ _ => rfl
  drain := rfl
  alone := id

theorem spares_spawn {batch : List TaskId} (outside : ∀ t ∈ S, t ∉ batch) : Spares S i m (m.spawn batch) where
  tasks := fun _ _ => rfl
  calls := by
    intro t mine
    funext d
    rw [call_spawn]
    split
    · rfl
    · rename_i late
      rw [if_neg, call, List.getElem?_eq_none (Nat.not_lt.mp late), Option.bind_none]
      exact fun created => outside t mine (List.mem_of_getElem? created)
  drain := rfl
  alone := id

theorem spares_setDrain {j : DrainId} {f : Drain → Drain} (other : j ≠ i)
    (scope : ∀ drain, (f drain).scope = drain.scope) :
    Spares S i m (m.setDrain j f) where
  tasks := fun _ _ => rfl
  calls := fun _ _ => rfl
  drain := by simp only [setDrain, List.getElem?_modify, if_neg other]; simp
  alone := by
    intro alone k drain apart there
    simp only [setDrain, List.getElem?_modify] at there
    obtain ⟨old, before, rfl⟩ := Option.map_eq_some_iff.mp there
    have kept : (if j = k then f old else old).scope = old.scope := by
      split
      · exact scope old
      · rfl
    rw [kept]
    exact alone k old apart before

/-- One turn of another drain that assigns no task of `S`. -/
theorem spares_drainRound {j : DrainId} {drain : Drain} {now : Time} (other : j ≠ i)
    (outside : ∀ t ∈ S, t ∉ (m.scheduler.assignAll drain.scope).1) :
    Spares S i m (m.drainRound j drain now) := by
  simp only [drainRound]
  split
  · have assigned := spares_assigned (i := i) (m.scheduler.assignAll_batch drain.scope) outside
    exact (assigned.trans (spares_spawn outside)).trans (spares_setDrain other fun _ => rfl)
  · split
    · exact spares_setDrain other fun _ => rfl
    · split
      · exact spares_setDrain other fun _ => rfl
      · split
        · exact spares_setDrain other fun _ => rfl
        · split
          · exact spares_setDrain other fun _ => rfl
          · exact spares_setDrain other fun _ => rfl

theorem spares_callDrain {timeout now : Time} {drain : Drain} (there : m.drains[i]? = some drain)
    (apart : scope = none ∨ leavesOut S scope) (outside : ∀ t ∈ S, t ∉ (m.scheduler.assignAll scope).1) :
    Spares S i m (m.callDrain scope timeout now) := by
  have known : i < m.drains.length := (List.getElem?_eq_some_iff.mp there).1
  have added : Spares S i m { m with drains := m.drains ++ [⟨scope, timeout, none, [], .sleeping⟩] } := by
    refine ⟨fun _ _ => rfl, fun _ _ => rfl, List.getElem?_append_left known, ?_⟩
    intro alone j other distinct found
    simp only [List.getElem?_append] at found
    split at found
    · exact alone j other distinct found
    · rw [List.getElem?_singleton] at found
      split at found
      · cases found
        exact apart
      · cases found
  exact added.trans (spares_drainRound (Nat.ne_of_gt known) outside)

theorem not_inScope {t : TaskId} (apart : leavesOut S scope) (mine : t ∈ S) :
    ¬ Scheduler.inScope scope t = true := by
  intro inside
  cases scope with
  | none => exact apart
  | some ids => exact apart t mine (by simpa [Scheduler.inScope] using inside)

theorem outside_of_leavesOut (s : Scheduler) (apart : leavesOut S scope) :
    ∀ t ∈ S, t ∉ (s.assignAll scope).1 := by
  intro t mine member
  exact not_inScope apart mine ((s.assignAll_batch scope).pending member).1

end Spares

end Master

/-- Some task of `S` is PENDING and some worker is IDLE. -/
def Scheduler.offers (s : Scheduler) (S : List TaskId) : Bool :=
  s.idleWorker?.isSome && S.any (fun t => (s.tasks.get? t).any (fun task => task.status = .pending))

theorem outside_of_no_offer {s : Scheduler} {S : List TaskId} (scope : Option (List TaskId))
    (nothing : s.offers S = false) : ∀ t ∈ S, t ∉ (s.assignAll scope).1 := by
  intro t mine member
  have made := s.assignAll_batch scope
  obtain ⟨_, task, found, pending⟩ := made.pending member
  have offered : s.offers S = true := by
    rw [Scheduler.offers, made.idle (List.ne_nil_of_mem member), Bool.true_and, List.any_eq_true]
    exact ⟨t, mine, by simp [found, pending]⟩
  rw [nothing] at offered
  cases offered

/-- The calls a drain waits for. -/
def Drain.batch (drain : Drain) : List DispatchId :=
  match drain.pc with
  | .gathering batch => batch
  | _ => []

/-- The scope from which a caller, or the dispatcher, takes tasks to dispatch. -/
def Action.scope? : Action → Option (Option (List TaskId))
  | .callDispatch t => some (some [t])
  | .assignAndDispatch scope | .callDrain scope _ _ => some scope
  | .dispatcherTick => some none
  | _ => none

namespace Master

/-- The setting of a caller that drains its own tasks `S`: the other callers keep
to other tasks, no dispatcher runs, and workers name the task they answer. -/
def keepsOut (S : List TaskId) (m : Master) (a : Action) : Prop :=
  (∀ scope ∈ a.scope?, leavesOut S scope) ∧ ∀ t ∈ S, m.repliesNamed t a

instance (S : List TaskId) (m : Master) (a : Action) : Decidable (keepsOut S m a) :=
  inferInstanceAs (Decidable ((∀ scope ∈ a.scope?, _) ∧ ∀ t ∈ S, _))

/-- The scheduler an unscoped drain assigns from in this step: the sweep of a
tick of the failure monitor, or a later turn of such a sweep. -/
def swept (m : Master) : Action → Option Scheduler
  | .monitorTick i now =>
    if m.monitors[i]? = some .waiting ∧ m.dispatcher = false ∧
        (m.scheduler.condemnStale heartbeatTimeout now).1 ≠ [] then
      some (m.scheduler.condemnStale heartbeatTimeout now).2
    else none
  | .resumeDrain j _ => (m.drains[j]?).bind (fun drain => if drain.scope = none then some m.scheduler else none)
  | _ => none

/-- No sweep finds a PENDING task of `S` together with an IDLE worker. -/
def sweepsPast (S : List TaskId) (m : Master) (a : Action) : Prop := ∀ s ∈ m.swept a, s.offers S = false

instance (S : List TaskId) (m : Master) (a : Action) : Decidable (sweepsPast S m a) :=
  inferInstanceAs (Decidable (∀ s ∈ m.swept a, _))

/-- Drain `i` of `S` has not ended badly and its books are in order; once it has
returned, all of `S` is terminal. -/
structure Draining (m : Master) (S : List TaskId) (i : DrainId) (drain : Drain) : Prop where
  there : m.drains[i]? = some drain
  scope : drain.scope = some S
  books : drain.pc = .timedOut ∨ drain.pc = .raised ∨ m.Ledger S drain.batch drain.responses
  ended : drain.pc = .returned → ∀ t ∈ S, ∃ task, m.tasks.get? t = some task ∧ task.status.terminal = true
  alone : m.Alone S i

section Draining
variable {m m' : Master} {S : List TaskId} {i : DrainId} {drain : Drain}
variable {now : Time}

theorem Draining.micro {a : Action} (draining : m.Draining S i drain) (fenced : m.Fenced) (move : Micro m a m')
    (named : ∀ t ∈ S, m.repliesNamed t a) : m'.Draining S i drain := by
  have drains := move.sameLoops.1
  refine ⟨by rw [drains]; exact draining.there, draining.scope, ?_, ?_, ?_⟩
  · exact draining.books.imp_right (Or.imp_right fun ledger => ledger.micro fenced move named)
  · intro returned t mine
    obtain ⟨task, found, terminal⟩ := draining.ended returned t mine
    obtain ⟨⟨task', found', status, _⟩, _⟩ := terminal_of_leases fenced (move.leases fenced t) found terminal
    exact ⟨task', found', by rw [status]; exact terminal⟩
  · intro j other apart found
    rw [drains] at found
    exact draining.alone j other apart found

theorem Draining.spared (draining : m.Draining S i drain) (spares : Spares S i m m') : m'.Draining S i drain where
  there := spares.drain.trans draining.there
  scope := draining.scope
  books := draining.books.imp_right (Or.imp_right fun ledger => ledger.spared spares)
  ended := by
    intro returned t mine
    obtain ⟨task, found, terminal⟩ := draining.ended returned t mine
    exact ⟨task, (spares.tasks t mine).trans found, terminal⟩
  alone := spares.alone draining.alone

theorem drains_setDrain (m : Master) (i j : DrainId) (f : Drain → Drain) :
    (m.setDrain i f).drains[j]? = if j = i then (m.drains[j]?).map f else m.drains[j]? := by
  simp only [setDrain, List.getElem?_modify, eq_comm (a := i)]
  split <;> simp

/-- Drain `i` moves on without its books changing. -/
theorem draining_setDrain {f : Drain → Drain} (there : m.drains[i]? = some drain) (scope : (f drain).scope = some S)
    (books : (f drain).pc = .timedOut ∨ (f drain).pc = .raised ∨
      m.Ledger S (f drain).batch (f drain).responses)
    (ended : (f drain).pc = .returned → ∀ t ∈ S, ∃ task, m.tasks.get? t = some task ∧ task.status.terminal = true)
    (alone : m.Alone S i) : (m.setDrain i f).Draining S i (f drain) where
  there := by rw [drains_setDrain, if_pos rfl, there]; rfl
  scope := scope
  books := books.imp_right (Or.imp_right fun ledger => ⟨ledger.within, ledger.tallied⟩)
  ended := ended
  alone := by
    intro j other apart found
    rw [drains_setDrain, if_neg apart] at found
    exact alone j other apart found

theorem terminal_of_not_outstanding {t : TaskId} {task : Task} (none : m.outstanding S = []) (mine : t ∈ S)
    (found : m.tasks.get? t = some task) : task.status.terminal = true := by
  rw [outstanding, List.map_eq_nil_iff, List.filter_eq_nil_iff] at none
  have ended := none (t, task) (Dict.mem_entries.mpr found)
  simpa [mine] using ended

/-- A turn of the drain itself, from books without a batch. -/
theorem draining_round (there : m.drains[i]? = some drain) (scope : drain.scope = some S)
    (ledger : m.Ledger S [] drain.responses) (alone : m.Alone S i) (now : Time) :
    ∃ drain', (m.drainRound i drain now).Draining S i drain' := by
  have made := m.scheduler.assignAll_batch drain.scope
  rw [scope] at made
  simp only [drainRound, scope]
  split
  · exact ⟨_, draining_setDrain there scope (.inr (.inr (ledger.assigned made)))
      (fun returned => by cases returned) alone⟩
  · split
    · rename_i none
      refine ⟨_, draining_setDrain there scope (.inr (.inr ledger)) (fun _ t mine => ?_) alone⟩
      obtain ⟨task, found, _⟩ := ledger.tallied t mine
      exact ⟨task, found, terminal_of_not_outstanding none mine found⟩
    · split
      · exact ⟨_, draining_setDrain there scope (.inr (.inr ledger)) (fun returned => by cases returned) alone⟩
      · split
        · exact ⟨_, draining_setDrain there scope (.inl rfl) (fun returned => by cases returned) alone⟩
        · exact ⟨_, draining_setDrain there scope (.inr (.inr ledger)) (fun returned => by cases returned) alone⟩

/-- The drain itself resumes. -/
theorem Draining.resumed (draining : m.Draining S i drain)
    (taken : m.drainStep i drain (.resumeDrain i now) = some m') : ∃ drain', m'.Draining S i drain' := by
  obtain ⟨there, scope, books, _, alone⟩ := draining
  simp only [drainStep] at taken
  split at taken
  · rename_i batch gathering
    have ledger : m.Ledger S batch drain.responses := by
      simpa [gathering, Drain.batch] using books
    unfold gathered at taken
    split at taken
    · cases taken
      exact ⟨_, draining_setDrain there scope (.inr (.inl rfl)) (fun returned => by cases returned) alone⟩
    · split at taken
      · cases taken
      · rename_i results all
        cases taken
        have entered :
            (m.setDrain i (fun drain => { drain with responses := drain.responses ++ results })).drains[i]? =
            some { drain with responses := drain.responses ++ results } := by
          rw [drains_setDrain, if_pos rfl, there]
          rfl
        refine draining_round entered scope ⟨(fun _ member => by cases member), (ledger.gathered all).tallied⟩ ?_ now
        intro j other apart found
        rw [drains_setDrain, if_neg apart] at found
        exact alone j other apart found
  · rename_i sleeping
    cases taken
    have ledger : m.Ledger S [] drain.responses := by
      simpa [sleeping, Drain.batch] using books
    exact draining_round there scope ledger alone now
  · cases taken

/-- Another drain resumes, without assigning a task of `S`. -/
theorem spares_resumeDrain {j : DrainId} {other : Drain} (apart : j ≠ i)
    (outside : ∀ t ∈ S, t ∉ (m.scheduler.assignAll other.scope).1)
    (taken : m.drainStep j other (.resumeDrain j now) = some m') : Spares S i m m' := by
  simp only [drainStep] at taken
  split at taken
  · unfold gathered at taken
    split at taken
    · cases taken
      exact spares_setDrain apart fun _ => rfl
    · split at taken
      · cases taken
      · rename_i results _
        cases taken
        have entered :
            Spares S i m (m.setDrain j fun other => { other with responses := other.responses ++ results }) :=
          spares_setDrain apart fun _ => rfl
        exact entered.trans (spares_drainRound apart outside)
  · cases taken
    exact spares_drainRound apart outside
  · cases taken

theorem abortDrain_eq {j : DrainId} {other : Drain} (taken : m.drainStep j other (.abortDrain j) = some m') :
    m' = m.setDrain j (fun drain => { drain with pc := .raised }) := by
  simp only [drainStep] at taken
  split at taken
  · exact (Option.some.inj taken).symm
  · exact (Option.some.inj taken).symm
  · cases taken

theorem Draining.ticked {k : Nat} (draining : m.Draining S i drain) (fenced : m.Fenced)
    (out : m.keepsOut S (.monitorTick k now)) (past : m.sweepsPast S (.monitorTick k now))
    (waiting : m.monitors[k]? = some .waiting) : (m.monitorTick k now).Draining S i drain := by
  have condemned : (m.condemnedStale now).Draining S i drain :=
    draining.micro fenced (.stale waiting) out.2
  simp only [monitorTick]
  split
  · exact condemned
  · rename_i sweeps
    rw [not_or] at sweeps
    have nothing := past _ (if_pos ⟨waiting, by simpa using sweeps.2, sweeps.1⟩)
    have swept : Spares S i (m.condemnedStale now) ((m.condemnedStale now).callDrain none 30000 now) :=
      spares_callDrain condemned.there (.inl rfl) (outside_of_no_offer none nothing)
    exact condemned.spared (swept.trans (spares_loops _ _))

/-- Every step of the setting that sweeps past `S` keeps the drain's books. -/
theorem Draining.step {a : Action} (draining : m.Draining S i drain) (fenced : m.Fenced) (out : m.keepsOut S a)
    (past : m.sweepsPast S a) (taken : m.step a = some m') : ∃ drain', m'.Draining S i drain' := by
  have moved : Micro m a m' → ∃ drain', m'.Draining S i drain' :=
    fun move => ⟨drain, draining.micro fenced move out.2⟩
  have spared : Spares S i m m' → ∃ drain', m'.Draining S i drain' :=
    fun spares => ⟨drain, draining.spared spares⟩
  cases a with
  | submitTask t taskType payload =>
    cases taken
    exact moved (submit_split m t taskType payload)
  | accept =>
    cases taken
    exact moved .accept
  | connectionLost l =>
    cases taken
    exact moved (.lose (.inl rfl))
  | stopCloses l =>
    simp only [Master.step] at taken
    split at taken
    · cases taken
      exact moved (.lose (.inr rfl))
    · cases taken
  | stopClears =>
    cases taken
    exact moved .clear
  | receive | receiveInvalid | handlerRaises | replySent | previousClosed | handlerClosed =>
    exact moved (step_micro (.inl rfl) taken)
  | startDispatch | sendDrained | sendFails | resumeDispatch | abortDispatch | connectionClosed =>
    exact moved (step_micro (.inr rfl) taken)
  | callDispatch t =>
    simp only [Master.step] at taken
    split at taken
    · cases taken
      exact spared (spares_spawn (out.1 _ rfl))
    · cases taken
  | assignAndDispatch scope =>
    simp only [Master.step] at taken
    split at taken
    · rename_i t s granted
      cases taken
      obtain ⟨grants, within⟩ := Scheduler.assignNextPendingTask_some granted
      have made : Scheduler.Batch scope m.scheduler [t] s := .cons grants within (.nil s)
      have outside : ∀ u ∈ S, u ∉ [t] := by
        intro u mine member
        obtain rfl := List.mem_singleton.mp member
        exact not_inScope (out.1 scope rfl) mine within
      exact spared ((spares_assigned made outside).trans (spares_spawn outside))
    · cases taken
  | startDispatcher =>
    cases taken
    exact spared (spares_loops m.monitors true)
  | stopDispatcher =>
    cases taken
    exact spared (spares_loops m.monitors false)
  | dispatcherTick => exact (out.1 none rfl).elim
  | callDrain scope timeout now =>
    cases taken
    have apart := out.1 scope rfl
    exact spared (spares_callDrain draining.there (.inr apart) (outside_of_leavesOut m.scheduler apart))
  | resumeDrain j now =>
    obtain ⟨other, found, taken⟩ := Option.bind_eq_some_iff.mp taken
    by_cases own : j = i
    · subst own
      obtain rfl : drain = other := Option.some.inj (draining.there.symm.trans found)
      exact draining.resumed taken
    · refine spared (spares_resumeDrain own ?_ taken)
      rcases draining.alone j other own found with unscoped | apart
      · rw [unscoped]
        exact outside_of_no_offer none (past m.scheduler (by simp [swept, found, unscoped]))
      · exact outside_of_leavesOut m.scheduler apart
  | abortDrain j =>
    obtain ⟨other, _, taken⟩ := Option.bind_eq_some_iff.mp taken
    rw [abortDrain_eq taken] at spared ⊢
    by_cases own : j = i
    · subst own
      exact ⟨_, draining_setDrain draining.there draining.scope (.inr (.inl rfl))
        (fun returned => by cases returned) draining.alone⟩
    · exact spared (spares_setDrain own fun _ => rfl)
  | startMonitor =>
    cases taken
    exact spared (spares_loops (m.monitors ++ [.waiting]) m.dispatcher)
  | monitorTick k now =>
    obtain ⟨pc, found, taken⟩ := Option.bind_eq_some_iff.mp taken
    simp only [monitorStep] at taken
    split at taken
    · cases taken
      exact ⟨drain, draining.ticked fenced out past found⟩
    · cases taken
  | resumeMonitor k =>
    obtain ⟨pc, found, taken⟩ := Option.bind_eq_some_iff.mp taken
    simp only [monitorStep] at taken
    split at taken
    · split at taken
      · cases taken
        exact spared (spares_loops _ m.dispatcher)
      · cases taken
        exact spared (spares_loops _ m.dispatcher)
      · cases taken
    · cases taken

end Draining

/-- The tasks `S` are fresh: PENDING, without a call, and in no other caller's scope. -/
def Fresh (m : Master) (S : List TaskId) : Prop :=
  (∀ t ∈ S, (m.tasks.get? t).map Task.status = some .pending) ∧
  (∀ dispatch ∈ m.dispatches, dispatch.taskId ∉ S) ∧
  ∀ drain ∈ m.drains, drain.scope = none ∨ leavesOut S drain.scope

instance (m : Master) (S : List TaskId) : Decidable (m.Fresh S) :=
  inferInstanceAs (Decidable ((∀ t ∈ S, _) ∧ (∀ dispatch ∈ m.dispatches, _) ∧ ∀ drain ∈ m.drains, _))

theorem ledger_of_fresh {m : Master} {S : List TaskId} (fresh : m.Fresh S) : m.Ledger S [] [] := by
  refine ⟨nofun, fun t mine => ?_⟩
  obtain ⟨task, found, pending⟩ := Option.map_eq_some_iff.mp (fresh.1 t mine)
  refine ⟨task, found, nofun, fun d pc _ there => ?_, nofun, fun _ => ?_⟩
  · exact absurd mine (fresh.2.1 _ (List.mem_of_getElem? (call_eq_some.mp there)))
  · rw [Idle, pending]
    exact ⟨rfl, nofun⟩

theorem draining_of_call {m : Master} {S : List TaskId} (fresh : m.Fresh S) (timeout now : Time) :
    ∃ drain, (m.callDrain (some S) timeout now).Draining S m.drains.length drain := by
  have ledger := ledger_of_fresh fresh
  have added : (m.drains ++ [(⟨some S, timeout, none, [], .sleeping⟩ : Drain)])[m.drains.length]? =
      some ⟨some S, timeout, none, [], .sleeping⟩ := List.getElem?_concat_length
  have alone : Alone { m with drains := m.drains ++ [⟨some S, timeout, none, [], .sleeping⟩] } S m.drains.length := by
    intro j other apart found
    simp only [List.getElem?_append] at found
    split at found
    · exact fresh.2.2 other (List.mem_of_getElem? found)
    · rename_i late
      obtain ⟨small, _⟩ := List.getElem?_eq_some_iff.mp found
      have early : j ≤ m.drains.length := Nat.sub_eq_zero_iff_le.mp (Nat.lt_one_iff.mp small)
      exact absurd (Nat.le_antisymm early (Nat.not_lt.mp late)) apart
  have books : Ledger { m with drains := m.drains ++ [⟨some S, timeout, none, [], .sleeping⟩] } S [] [] :=
    ⟨ledger.within, ledger.tallied⟩
  exact draining_round added rfl books alone now

/-- A caller drains its fresh tasks `S` while the others keep out of them. In
every run of that setting whose sweeps all go past `S`, once the drain has
returned, the last response it holds for a task of `S` is that of the attempt in
which the task ended, and a success where the task is COMPLETED. -/
theorem scoped_drain_answers {m m₁ m' : Master} {S : List TaskId} {timeout now : Time} {drain : Drain}
    (before : Steps step anyStep initial m) (fresh : m.Fresh S)
    (called : m.step (.callDrain (some S) timeout now) = some m₁)
    (run : Steps step (fun n a => n.keepsOut S a ∧ n.sweepsPast S a) m₁ m')
    (there : m'.drains[m.drains.length]? = some drain) (returned : drain.pc = .returned) :
    ∀ t ∈ S, ∃ task response, m'.tasks.get? t = some task ∧ task.status.terminal = true ∧
      lastAnswer t drain.responses = some response ∧
      response.requestId = attemptRequestId t task.attempt ∧
      (task.status = .completed → response.isSuccess = true) := by
  have fenced : ∀ n, Steps step (fun n a => n.keepsOut S a ∧ n.sweepsPast S a) m₁ n → n.Fenced := fun n later =>
    fenced_of_run ((before.snoc trivial called).trans (later.mono fun _ _ _ => trivial))
  have start : ∃ drain, m₁.Draining S m.drains.length drain := by
    obtain rfl := Option.some.inj called
    exact draining_of_call fresh timeout now
  obtain ⟨drain', draining⟩ : ∃ drain, m'.Draining S m.drains.length drain := by
    refine run.invariant_with (I := fun n => ∃ drain, n.Draining S m.drains.length drain) fenced start ?_
    rintro n a n' sound ⟨drain, draining⟩ ⟨out, past⟩ taken
    exact draining.step sound out past taken
  obtain rfl : drain = drain' := Option.some.inj (there.symm.trans draining.there)
  have ledger : m'.Ledger S [] drain.responses := by simpa [returned, Drain.batch] using draining.books
  intro t mine
  obtain ⟨task, found, terminal⟩ := draining.ended returned t mine
  obtain ⟨task', found', tally⟩ := ledger.tallied t mine
  obtain rfl : task = task' := Option.some.inj (found.symm.trans found')
  obtain ⟨response, last, _, belongs, success⟩ := (tally.idle nofun).2 terminal
  exact ⟨task, response, found, terminal, last, belongs, success⟩

/-- Task `t` is submitted and worker `v` registers. -/
def submittedRun : List Action :=
  [.submitTask "t" "ADD" [], .accept, .receive 0 (registerRequest "v") 0, .replySent 0]

/-- The worker of `t` misses its heartbeats, and the sweep finds no other worker;
when it has gone and another has come, the drain assigns `t` again. -/
def retriedRun : List Action :=
  [.startDispatch 0 1000, .sendDrained 0, .startMonitor, .monitorTick 0 6000, .handlerRaises 0, .resumeDispatch 0,
    .resumeDrain 0 6010, .accept, .receive 1 (registerRequest "w") 6020, .replySent 1, .resumeDrain 0 6030,
    .startDispatch 1 1000, .sendDrained 1, .receive 1 (taskResult "t" 2 "success") 6040, .resumeDispatch 1,
    .resumeDrain 0 6050]

theorem retriedRun_answered : ∃ m m₁ m', ∃ drain : Drain, Steps step anyStep initial m ∧ m.Fresh ["t"] ∧
    m.step (.callDrain (some ["t"]) 30000 0) = some m₁ ∧
    Steps step (fun n a => n.keepsOut ["t"] a ∧ n.sweepsPast ["t"] a) m₁ m' ∧
    m'.drains[m.drains.length]? = some drain ∧ drain.pc = .returned ∧
    (m'.tasks.get? "t").map Task.status = some .completed ∧
    (lastAnswer "t" drain.responses).map (fun response => (response.requestId, response.isSuccess)) =
      some ("task-t:2", true) := by
  obtain ⟨m, m₁, before, called, fresh, played⟩ : ∃ m m₁, Steps step anyStep initial m ∧
      m.step (.callDrain (some ["t"]) 30000 0) = some m₁ ∧ m.Fresh ["t"] ∧
      (replay step (fun n a => n.keepsOut ["t"] a ∧ n.sweepsPast ["t"] a) m₁ retriedRun).any (fun m' => decide
        ((m'.tasks.get? "t").map (fun task => (task.status, task.attempt)) = some (.completed, 2) ∧
          (m'.drains[m.drains.length]?).map Drain.pc = some .returned)) = true :=
    replay_then submittedRun (Action.callDrain (some ["t"]) 30000 0) (by decide)
  obtain ⟨m', run, ended, returned⟩ := replay_reaches retriedRun played
  obtain ⟨drain, there, isReturned⟩ := Option.map_eq_some_iff.mp returned
  obtain ⟨task, response, found, _, last, belongs, success⟩ :=
    scoped_drain_answers before fresh called run there isReturned "t" List.mem_cons_self
  rw [found, Option.map_some, Option.some.injEq, Prod.mk.injEq] at ended
  refine ⟨m, m₁, m', drain, before, fresh, called, run, there, isReturned, by rw [found, ← ended.1]; rfl, ?_⟩
  rw [last, Option.map_some, belongs, ended.2, success ended.1]
  decide

/-- The worker `v` of `t` misses its heartbeats while `w` is idle, so the sweep
gives `t` to `w`, which completes it, and keeps the response; then `v` goes away. -/
def sweptRun : List Action :=
  [.startDispatch 0 1000, .sendDrained 0, .accept, .receive 1 (registerRequest "w") 3000, .replySent 1, .startMonitor,
    .monitorTick 0 6000, .startDispatch 1 1000, .sendDrained 1, .receive 1 (taskResult "t" 2 "success") 6010,
    .resumeDispatch 1, .handlerRaises 0, .resumeDispatch 0, .resumeDrain 0 6020]

theorem sweptRun_stale_answer : ∃ m m₁ m', Steps step anyStep initial m ∧ m.Fresh ["t"] ∧
    m.step (.callDrain (some ["t"]) 30000 0) = some m₁ ∧ Steps step (keepsOut ["t"]) m₁ m' ∧
    (m'.tasks.get? "t").map (fun task => (task.status, task.attempt)) = some (.completed, 2) ∧
    (m'.drains[m.drains.length]?).map Drain.pc = some .returned ∧
    ((m'.drains[m.drains.length]?).bind (fun drain => lastAnswer "t" drain.responses)).map
      (fun response => (response.requestId, response.isSuccess)) = some ("task-t:1", false) := by
  obtain ⟨m, m₁, before, called, fresh, played⟩ : ∃ m m₁, Steps step anyStep initial m ∧
      m.step (.callDrain (some ["t"]) 30000 0) = some m₁ ∧ m.Fresh ["t"] ∧
      (replay step (keepsOut ["t"]) m₁ sweptRun).any (fun m' => decide
        ((m'.tasks.get? "t").map (fun task => (task.status, task.attempt)) = some (.completed, 2) ∧
          (m'.drains[m.drains.length]?).map Drain.pc = some .returned ∧
          ((m'.drains[m.drains.length]?).bind (fun drain => lastAnswer "t" drain.responses)).map
            (fun response => (response.requestId, response.isSuccess)) = some ("task-t:1", false))) = true :=
    replay_then submittedRun (Action.callDrain (some ["t"]) 30000 0) (by decide)
  obtain ⟨m', run, ended⟩ := replay_reaches sweptRun played
  exact ⟨m, m₁, m', before, fresh, called, run, ended⟩

end Master
end DistributedCompute
