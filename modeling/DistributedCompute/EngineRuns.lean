import DistributedCompute.Callers
import DistributedCompute.Engine
import DistributedCompute.ScopedDrain

/-! Runs of the engine. Every run of the engine is a run of the cluster, in which all
workers run the client's code; the calls of `wait_for_tasks` see what the master has
recorded. So whatever a call or a drain returns tells what the workers did with the tasks
as they were submitted. -/
namespace DistributedCompute
open Py Raising Relation Transition

variable {floatRepr : BitVec 64 → String} {rt : Runtime}

/-! ### The responses of a drain -/

namespace Master
variable {m m' : Master} {a : Action}

/-- A call of `dispatch_assigned_task` has returned the response. -/
def HasReturned (m : Master) (response : Message) : Prop :=
  ∃ (d : DispatchId) (t : TaskId), m.dispatches[d]? = some ⟨t, .returned response⟩

/-- What a drain has in `m'` it had in `m`, or a call has returned it there. -/
def Gathers (m m' : Master) : Prop :=
  ∀ (i : DrainId) (drain' : Drain) (response : Message), m'.drains[i]? = some drain' →
    response ∈ drain'.responses →
    (∃ drain : Drain, m.drains[i]? = some drain ∧ response ∈ drain.responses) ∨ m.HasReturned response

theorem gathers_of_eq (same : m'.drains = m.drains) : m.Gathers m' :=
  fun _ drain' _ there member => .inl ⟨drain', same ▸ there, member⟩

/-- One drain changes, and gets results of calls at most. -/
theorem gathers_modify {i : DrainId} {f : Drain → Drain} (drains : m'.drains = m.drains.modify i f)
    (gets : ∀ drain, m.drains[i]? = some drain → ∀ response ∈ (f drain).responses,
      response ∈ drain.responses ∨ m.HasReturned response) : m.Gathers m' := by
  intro k drain' response there member
  rw [drains, Futures.getElem?_modify_ite] at there
  split at there
  · rename_i same
    subst same
    obtain ⟨drain, found, rfl⟩ := Option.map_eq_some_iff.mp there
    rcases gets drain found response member with old | new
    · exact .inl ⟨drain, found, old⟩
    · exact .inr new
  · exact .inl ⟨drain', there, member⟩

/-- A round of a drain moves its program counter and its deadline. -/
theorem drainRound_drains (m : Master) (i : DrainId) (drain : Drain) (now : Time) :
    ∃ f : Drain → Drain, (m.drainRound i drain now).drains = m.drains.modify i f ∧
      ∀ drain, (f drain).responses = drain.responses := by
  simp only [drainRound]
  split
  · exact ⟨_, rfl, fun _ => rfl⟩
  · split
    · exact ⟨_, rfl, fun _ => rfl⟩
    · split
      · exact ⟨_, rfl, fun _ => rfl⟩
      · split
        · exact ⟨_, rfl, fun _ => rfl⟩
        · split <;> exact ⟨_, rfl, fun _ => rfl⟩

theorem gathers_callDrain (m : Master) (scope : Option (List TaskId)) (timeout now : Time) :
    m.Gathers (m.callDrain scope timeout now) := by
  obtain ⟨f, drains, kept⟩ := drainRound_drains
    { m with drains := m.drains ++ [⟨scope, timeout, none, [], .sleeping⟩] }
    m.drains.length ⟨scope, timeout, none, [], .sleeping⟩ now
  intro i drain' response there member
  rw [callDrain, drains, Futures.getElem?_modify_ite] at there
  have old : ∀ {drain : Drain}, (m.drains ++ [⟨scope, timeout, none, [], .sleeping⟩])[i]? = some drain →
      response ∈ drain.responses → ∃ drain : Drain, m.drains[i]? = some drain ∧ response ∈ drain.responses := by
    intro drain found inside
    rcases Futures.getElem?_concat_cases found with before | ⟨_, rfl⟩
    · exact ⟨drain, before, inside⟩
    · cases inside
  split at there
  · obtain ⟨drain, found, rfl⟩ := Option.map_eq_some_iff.mp there
    rw [kept] at member
    exact .inl (old found member)
  · exact .inl (old there member)

theorem gathers_gathered {i : DrainId} {drain : Drain} {batch : List DispatchId} {now : Time}
    (taken : m.gathered i drain batch now = some m') : m.Gathers m' := by
  unfold gathered at taken
  split at taken
  · cases taken
    exact gathers_modify rfl fun _ _ _ member => .inl member
  · split at taken
    · cases taken
    · rename_i results all
      cases taken
      obtain ⟨f, drains, kept⟩ := drainRound_drains
        (m.setDrain i (fun drain => { drain with responses := drain.responses ++ results })) i
        { drain with responses := drain.responses ++ results } now
      have both :
          (m.drains.modify i (fun drain => { drain with responses := drain.responses ++ results })).modify i f =
          m.drains.modify i (fun drain => f { drain with responses := drain.responses ++ results }) :=
        List.modify_modify_eq ..
      refine gathers_modify (drains.trans both) fun before _ response member => ?_
      rw [kept] at member
      rcases List.mem_append.mp member with old | new
      · exact .inl old
      · obtain ⟨d, _, returned⟩ := (mem_of_mapM all).2 response new
        unfold result? dispatchPc at returned
        split at returned
        · rename_i pc
          cases returned
          obtain ⟨⟨t, _⟩, there, rfl⟩ := Option.map_eq_some_iff.mp pc
          exact .inr ⟨d, t, there⟩
        · cases returned

theorem step_gathers (taken : m.step a = some m') : m.Gathers m' := by
  have own (named : a.link?.isSome = true ∨ a.dispatch?.isSome = true) : m.Gathers m' :=
    gathers_of_eq (step_micro named taken).sameLoops.1
  cases a with
  | receive | receiveInvalid | handlerRaises | replySent | previousClosed | handlerClosed => exact own (.inl rfl)
  | startDispatch | sendDrained | sendFails | resumeDispatch | abortDispatch | connectionClosed =>
    exact own (.inr rfl)
  | submitTask | accept | connectionLost | startDispatcher | stopDispatcher | startMonitor | stopClears =>
    cases taken
    exact gathers_of_eq rfl
  | callDispatch t | dispatcherTick | stopCloses =>
    simp only [step] at taken
    split at taken
    · cases taken
      exact gathers_of_eq rfl
    · cases taken
  | assignAndDispatch scope =>
    simp only [step] at taken
    split at taken
    · cases taken
      exact gathers_of_eq rfl
    · cases taken
  | callDrain scope timeout now =>
    cases taken
    exact gathers_callDrain m scope timeout now
  | resumeDrain i now =>
    obtain ⟨drain, _, taken⟩ := Option.bind_eq_some_iff.mp taken
    simp only [drainStep] at taken
    split at taken
    · exact gathers_gathered taken
    · cases taken
      obtain ⟨f, drains, kept⟩ := drainRound_drains m i drain now
      exact gathers_modify drains fun _ _ _ member => .inl (kept _ ▸ member)
    · cases taken
  | abortDrain i =>
    obtain ⟨drain, _, taken⟩ := Option.bind_eq_some_iff.mp taken
    simp only [drainStep] at taken
    split at taken
    · cases taken
      exact gathers_modify rfl fun _ _ _ member => .inl member
    · cases taken
      exact gathers_modify rfl fun _ _ _ member => .inl member
    · cases taken
  | monitorTick i now =>
    obtain ⟨pc, _, taken⟩ := Option.bind_eq_some_iff.mp taken
    simp only [monitorStep] at taken
    split at taken
    · cases taken
      unfold monitorTick
      dsimp only
      split
      · exact gathers_of_eq rfl
      · exact gathers_callDrain { m with scheduler := (m.scheduler.condemnStale heartbeatTimeout now).2 } none
          30000 now
    · cases taken
  | resumeMonitor i =>
    obtain ⟨pc, _, taken⟩ := Option.bind_eq_some_iff.mp taken
    simp only [monitorStep] at taken
    split at taken
    · split at taken
      · cases taken
        exact gathers_of_eq rfl
      · cases taken
        exact gathers_of_eq rfl
      · cases taken
    · cases taken

end Master

namespace Cluster
variable {c c' : Cluster}
variable {ok : Cluster → ClusterAction → Prop}

/-- Whatever a drain has gathered comes from a worker, or says that none was reached. -/
theorem drained_of_run (run : Steps (step floatRepr) ok initial c) {i : DrainId} {drain : Drain} {response : Message}
    (there : c.master.drains[i]? = some drain) (member : response ∈ drain.responses) :
    ∃ t, Founded floatRepr c t response := by
  induction run generalizing i drain with
  | refl => cases there
  | snoc before _ taken ih =>
    have joined := joined_of_run before
    have change := change_of_step taken
    rcases change.master with same | ⟨a, stepped⟩
    · rw [same] at there
      obtain ⟨t, founded⟩ := ih there member
      exact ⟨t, founded.later joined change⟩
    · rcases Master.step_gathers stepped i drain response there member with ⟨old, found, held⟩ | ⟨d, t, returned⟩
      · obtain ⟨t, founded⟩ := ih found held
        exact ⟨t, founded.later joined change⟩
      · exact ⟨t, Founded.later joined change ((backed_of_run before).held returned rfl)⟩

/-! ### One runtime for all -/

/-- All workers run `rt`. -/
def Uniform (rt : Runtime) (c : Cluster) : Prop := ∀ p ∈ c.peers, p.runtime = rt

theorem Uniform.write (uniform : c.Uniform rt) (m : Master) (written : Option (LinkId × Message)) :
    (c.write floatRepr m written).Uniform rt := by
  intro p member
  obtain ⟨l, here⟩ := List.mem_iff_getElem?.mp member
  rw [peers_write] at here
  obtain ⟨q, found, rfl⟩ := Option.map_eq_some_iff.mp here
  exact uniform q (List.mem_iff_getElem?.mpr ⟨l, found⟩)

theorem Uniform.modify (uniform : c.Uniform rt) {l : LinkId} {p : Peer} {f : Peer → Peer}
    (here : c.peers[l]? = some p) (same : (f p).runtime = p.runtime) :
    Uniform rt { c with peers := c.peers.modify l f } := by
  intro q member
  obtain ⟨k, found⟩ := List.mem_iff_getElem?.mp member
  rcases peer_of_modify here found with ⟨_, rfl⟩ | ⟨_, other⟩
  · exact same.trans (uniform p (List.mem_iff_getElem?.mpr ⟨l, here⟩))
  · exact uniform q (List.mem_iff_getElem?.mpr ⟨k, other⟩)

theorem Uniform.deliver (uniform : c.Uniform rt) {l : LinkId} {now : Time}
    (taken : c.deliver floatRepr l now = some c') : c'.Uniform rt := by
  unfold Cluster.deliver at taken
  split at taken
  · rename_i document rest said
    obtain ⟨p, here, _⟩ := Option.map_eq_some_iff.mp said
    have read := uniform.modify (f := fun p => { p with outbox := rest }) here rfl
    dsimp only at taken
    split at taken
    · obtain ⟨m, _, rfl⟩ := Option.map_eq_some_iff.mp taken
      exact read.write _ _
    · obtain ⟨m, _, rfl⟩ := Option.map_eq_some_iff.mp taken
      exact read.write _ _
    · obtain ⟨m, _, rfl⟩ := Option.map_eq_some_iff.mp taken
      exact read.write _ _
  · cases taken

theorem Uniform.step {a : ClusterAction} (uniform : c.Uniform rt) (taken : c.step floatRepr a = some c')
    (joins : ∀ runtime workerId host port, a = .connect runtime workerId host port → runtime = rt) :
    c'.Uniform rt := by
  cases a with
  | connect runtime workerId host port =>
    cases taken
    intro p member
    rcases List.mem_append.mp member with old | new
    · exact uniform p old
    · obtain rfl := List.mem_singleton.mp new
      exact joins runtime workerId host port rfl
  | master a =>
    simp only [Cluster.step] at taken
    split at taken
    · obtain ⟨m, _, rfl⟩ := Option.map_eq_some_iff.mp taken
      exact uniform.write _ _
    · cases taken
  | deliver l now => exact uniform.deliver taken
  | worker l a =>
    obtain ⟨p', acted, rfl⟩ := Option.map_eq_some_iff.mp taken
    obtain ⟨p, here, acted⟩ := Option.bind_eq_some_iff.mp acted
    exact uniform.modify here (served_of_does (Peer.does_of_act acted)).1

/-! ### What a response tells -/

/-- The response is about `t`, and a success carries what `execute_task` makes of the task
as it was submitted, both after the wire. -/
structure Tells (floatRepr : BitVec 64 → String) (rt : Runtime) (m : Master) (t : TaskId) (response : Message) :
    Prop where
  about : response.about t = true
  judged : response.succeeded = response.isSuccess
  result : response.succeeded = true → ∃ task value, m.tasks.get? t = some task ∧
    rt.runTask task.taskType (wireEntries floatRepr task.payload) = .ok value ∧
    response.get? "result" = some (value.document floatRepr).loads

theorem tells_unreachable (m : Master) (t : TaskId) (attempt : Nat) (reason : String) :
    Tells floatRepr rt m t (Master.workerUnreachable t attempt reason) :=
  ⟨Master.about_workerUnreachable t attempt reason, rfl, fun succeeded => nomatch succeeded⟩

theorem tells_of_founded (run : Steps (Cluster.step floatRepr) ok initial c) (uniform : c.Uniform rt) {t : TaskId}
    {response : Message} (founded : Founded floatRepr c t response) :
    Tells floatRepr rt c.master t response := by
  have joined := joined_of_run run
  rcases founded with ⟨attempt, reason, rfl⟩ | ⟨l, p, message, reply, here, done, rfl, computed, rfl⟩
  · exact tells_unreachable c.master t attempt reason
  · obtain ⟨u, attempt, task, _, known, rfl⟩ := Master.mem_sentTasks.mp (joined.sent here done)
    rw [uniform p (List.mem_iff_getElem?.mpr ⟨l, here⟩)] at computed
    have reflects := reflects_of_reply rfl rfl computed
    obtain ⟨fields, _, rfl⟩ := serveTask_reply computed
    -- a reply is a TASK_RESULT, so only its status counts
    have judged : (((TaskMessage.ofTask floatRepr u task attempt).reply fields).overWire floatRepr).succeeded =
        Message.isSuccess (((TaskMessage.ofTask floatRepr u task attempt).reply fields).overWire floatRepr) :=
      (Bool.true_and _).symm
    refine ⟨?_, judged, fun succeeded => ?_⟩
    · simp [Message.about, Message.get?, field, Message.overWire, TaskMessage.reply, TaskMessage.ofTask, buildMessage,
        Val.document, Json.loads]
    · have success := judged.symm.trans succeeded
      unfold Runtime.Reflects at reflects
      split at reflects
      · rename_i value ran
        exact ⟨task, value, known, ran, reflects.2⟩
      · rw [reflects.1] at success
        cases success
      · cases reflects

/-! ### Submitting tasks -/

theorem write_none (c : Cluster) (m : Master) : c.write floatRepr m none = ⟨m, c.peers⟩ := by
  have same : (c.write floatRepr m none).peers = c.peers := by
    apply List.ext_getElem?
    intro l
    rw [peers_write]
    simp [arriving_none]
  exact congrArg (Cluster.mk m) same

/-- Submitting the tasks of a job is a run of the cluster. -/
theorem submit_run (c : Cluster) (submissions : List Submission) : Steps (Cluster.step floatRepr) anyTurn c
    { c with master := { c.master with scheduler := (submitAll c.master.scheduler submissions).2 } } := by
  induction submissions generalizing c with
  | nil => exact .refl
  | cons next rest ih =>
    have taken : c.step floatRepr (.master (.submitTask next.taskId next.taskType next.payload)) =
        some { c with master := { c.master with
          scheduler := (c.master.scheduler.submitTask next.taskId next.taskType next.payload).2 } } :=
      congrArg some (write_none c _)
    refine (Steps.snoc .refl trivial taken).trans ?_
    rw [submitAll]
    split
    · rename_i refused
      rw [refused]
      exact .refl
    · rename_i accepted
      rw [accepted]
      exact ih _

/-- Tasks stay, with their type and payload. -/
theorem keepsWork_of_run (run : Steps (Cluster.step floatRepr) ok c c') :
    c.master.KeepsWork c'.master := by
  induction run with
  | refl => exact fun _ task found => ⟨task, found, rfl, rfl⟩
  | snoc _ _ taken ih =>
    rcases (change_of_step taken).master with same | ⟨a, stepped⟩
    · exact same ▸ ih
    · exact ih.trans (Master.step_keepsWork stepped)

end Cluster

/-! ### The engine follows the cluster -/

namespace Engine
variable {e e' : Engine}

/-- Everything that goes on in the engine is a run of the cluster and one of the calls,
which have been told what the master recorded. -/
structure Served (floatRepr : BitVec 64 → String) (rt : Runtime) (e : Engine) : Prop where
  run : Steps (Cluster.step floatRepr) Cluster.anyTurn Cluster.initial e.cluster
  uniform : e.cluster.Uniform rt
  calls : Steps Registry.step Registry.anyWait Registry.initial e.registry
  logged : e.registry.log = e.cluster.master.history.filterMap Event.record?

theorem served_initial : Served floatRepr rt initial := ⟨.refl, fun _ member => (nomatch member), .refl, rfl⟩

/-- What no step of the engine takes away. -/
structure Later (e e' : Engine) : Prop where
  work : e.cluster.master.KeepsWork e'.cluster.master
  callers : ∀ {c : CallerId} {caller : Caller}, e.registry.callers[c]? = some caller →
    ∃ caller', e'.registry.callers[c]? = some caller' ∧ caller'.taskIds = caller.taskIds
  log : ∀ record ∈ e.registry.log, record ∈ e'.registry.log

theorem Later.of_same (work : e.cluster.master.KeepsWork e'.cluster.master) (registry : e'.registry = e.registry) :
    e.Later e' :=
  ⟨work, fun there => ⟨_, registry ▸ there, rfl⟩, fun _ recorded => registry ▸ recorded⟩

theorem Later.trans {e'' : Engine} (first : e.Later e') (second : e'.Later e'') : e.Later e'' := by
  refine ⟨first.work.trans second.work, fun there => ?_, fun record recorded =>
    second.log record (first.log record recorded)⟩
  obtain ⟨_, there', same⟩ := first.callers there
  obtain ⟨caller'', there'', same'⟩ := second.callers there'
  exact ⟨caller'', there'', same'.trans same⟩

theorem callers_record (r : Registry) (records : List (TaskId × Message)) :
    (records.foldl (fun r record => r.recordTaskResponse record.1 record.2) r).callers = r.callers := by
  induction records generalizing r with
  | nil => rfl
  | cons record rest ih => exact ih _

section Follow
variable {a : ClusterAction} {c : Cluster}

theorem history_of_change (change : Cluster.Change floatRepr e.cluster c) :
    ∃ more, c.master.history = e.cluster.master.history ++ more := by
  rcases change.master with same | ⟨a, stepped⟩
  · exact ⟨[], by rw [same, List.append_nil]⟩
  · obtain ⟨more, grown⟩ := Master.step_history stepped
    exact ⟨more, grown.symm⟩

theorem Served.follow (served : Served floatRepr rt e) (taken : e.cluster.step floatRepr a = some c)
    (joins : ∀ runtime workerId host port, a = .connect runtime workerId host port → runtime = rt) :
    Served floatRepr rt (e.follow c) := by
  obtain ⟨more, grown⟩ := history_of_change (Cluster.change_of_step taken)
  obtain ⟨calls, log⟩ := MasterRuntime.registry_records (more.filterMap Event.record?) e.registry
  have new : c.master.history.drop e.cluster.master.history.length = more := by rw [grown, List.drop_left]
  refine ⟨.snoc served.run trivial taken, served.uniform.step taken joins, ?_, ?_⟩
  · simp only [Engine.follow, new]
    exact served.calls.trans calls
  · simp only [Engine.follow, new]
    rw [log, grown, List.filterMap_append, served.logged]

theorem later_follow (taken : e.cluster.step floatRepr a = some c) : e.Later (e.follow c) := by
  obtain ⟨_, log⟩ := MasterRuntime.registry_records
    ((c.master.history.drop e.cluster.master.history.length).filterMap Event.record?) e.registry
  refine ⟨?_, fun {k caller} there => ⟨caller, ?_, rfl⟩, fun record recorded => ?_⟩
  · exact Cluster.keepsWork_of_run (Steps.snoc .refl trivial taken : Steps _ Cluster.anyTurn _ _)
  · simp only [Engine.follow, callers_record]
    exact there
  · simp only [Engine.follow, log]
    exact List.mem_append_left _ recorded

theorem Served.turn (served : Served floatRepr rt e) (taken : e.turn floatRepr a = some e')
    (joins : ∀ runtime workerId host port, a = .connect runtime workerId host port → runtime = rt) :
    Served floatRepr rt e' ∧ e.Later e' := by
  obtain ⟨c, stepped, rfl⟩ := Option.map_eq_some_iff.mp taken
  exact ⟨served.follow stepped joins, later_follow stepped⟩

end Follow

theorem Served.submitted (served : Served floatRepr rt e) (submissions : List Submission) :
    Served floatRepr rt (e.submitted (submitAll e.scheduler submissions).2) ∧
      e.Later (e.submitted (submitAll e.scheduler submissions).2) := by
  have more : Steps (Cluster.step floatRepr) Cluster.anyTurn e.cluster _ := Cluster.submit_run e.cluster submissions
  exact ⟨⟨served.run.trans more, served.uniform, served.calls, served.logged⟩,
    .of_same (Cluster.keepsWork_of_run more) rfl⟩

variable {taskIds order : List TaskId} {now : Time}

theorem Served.waitForTasks (served : Served floatRepr rt e) (taken : e.waitForTasks floatRepr taskIds = some e') :
    Served floatRepr rt e' ∧ e.Later e' ∧
      ∃ caller, e'.registry.callers[e.registry.callers.length]? = some caller ∧ caller.taskIds = taskIds := by
  obtain ⟨mid, turned, rfl⟩ := Option.map_eq_some_iff.mp taken
  obtain ⟨⟨run, uniform, calls, logged⟩, later⟩ := served.turn turned (fun _ _ _ _ other => nomatch other)
  have same : mid.registry.callers = e.registry.callers := by
    obtain ⟨c, _, rfl⟩ := Option.map_eq_some_iff.mp turned
    exact callers_record _ _
  have log := Registry.waitForTasks_log mid.registry taskIds
  obtain ⟨r', awaited, pc, obtained, _, after, _⟩ :=
    Registry.waitForTasks_spec (Registry.linked_of_run Registry.linked_initial calls) taskIds
  have callers : (mid.registry.waitForTasks taskIds).callers =
      e.registry.callers ++ [⟨taskIds, mid.registry.taken taskIds, awaited, none, pc⟩] := by rw [after, ← same]
  refine ⟨⟨run, uniform, .snoc calls trivial (a := .call taskIds) rfl, log.trans logged⟩, ?_, ?_⟩
  · refine ⟨later.work, fun {c caller} there => ⟨caller, ?_, rfl⟩, fun record recorded => ?_⟩
    · simp only [callers]
      rw [List.getElem?_append_left (List.getElem?_eq_some_iff.mp there).1]
      exact there
    · simp only [log]
      exact later.log record recorded
  · refine ⟨⟨taskIds, mid.registry.taken taskIds, awaited, none, pc⟩, ?_, rfl⟩
    simp only [callers, List.getElem?_concat_length]

theorem Served.caller (served : Served floatRepr rt e) {a : WaitAction} {r : Registry}
    (turned : a.caller?.isSome = true) (taken : e.registry.step a = some r) :
    Served floatRepr rt { e with registry := r } ∧ e.Later { e with registry := r } := by
  obtain ⟨c, named⟩ := Option.isSome_iff_exists.mp turned
  have log := Registry.turn_log named taken
  refine ⟨⟨served.run, served.uniform, .snoc served.calls trivial taken, log.trans served.logged⟩,
    Cluster.keepsWork_of_run (.refl : Steps (Cluster.step floatRepr) Cluster.anyTurn _ _),
    fun {k caller} there => ?_, fun record recorded => log ▸ recorded⟩
  cases a with
  | call | record | clear => cases named
  | interrupt c _ | gatherEnds c | resume c | unwind c =>
    obtain ⟨other, _, stepped⟩ := Option.bind_eq_some_iff.mp taken
    obtain ⟨f, cells, rfl, kept, _⟩ := Registry.callerStep_turn stepped
    rw [Registry.setCaller_callers, there]
    split
    · exact ⟨f caller, rfl, (kept caller).1⟩
    · exact ⟨caller, rfl, rfl⟩

/-- The jobs are on nobody's mind but their own. -/
theorem Served.withJobs (served : Served floatRepr rt e) (jobs : List Job) : Served floatRepr rt { e with jobs } :=
  ⟨served.run, served.uniform, served.calls, served.logged⟩

theorem Later.withJobs {e₁ : Engine} (later : e₁.Later e) (jobs : List Job) : e₁.Later { e with jobs } :=
  ⟨later.work, later.callers, later.log⟩

theorem Later.refl (e : Engine) : e.Later e :=
  .of_same (fun _ task found => ⟨task, found, rfl, rfl⟩) rfl

/-- The ticket is for a call with these task ids, or for a drain. -/
def Awaits (e : Engine) (choice : DispatchChoice) (taskIds : List TaskId) : Ticket → Prop
  | .caller c => ∃ caller, e.registry.callers[c]? = some caller ∧ caller.taskIds = taskIds
  | .drain _ => choice ≠ .waitForTasks

theorem Awaits.later {choice : DispatchChoice} {ticket : Ticket} (awaits : e.Awaits choice taskIds ticket)
    (later : e.Later e') : e'.Awaits choice taskIds ticket := by
  cases ticket with
  | drain i => exact awaits
  | caller c =>
    obtain ⟨caller, there, asked⟩ := awaits
    obtain ⟨caller', there', same⟩ := later.callers there
    exact ⟨caller', there', same.trans asked⟩

theorem Served.dispatch (served : Served floatRepr rt e) {choice : DispatchChoice} {next : Ticket × Engine}
    (taken : e.dispatch floatRepr choice taskIds now = some next) :
    Served floatRepr rt next.2 ∧ e.Later next.2 ∧ next.2.Awaits choice taskIds next.1 ∧ next.2.jobs = e.jobs := by
  unfold Engine.dispatch at taken
  cases choice with
  | waitForTasks =>
    obtain ⟨e', called, rfl⟩ := Option.map_eq_some_iff.mp taken
    obtain ⟨served', later, caller⟩ := served.waitForTasks called
    refine ⟨served', later, caller, ?_⟩
    obtain ⟨mid, turned, rfl⟩ := Option.map_eq_some_iff.mp called
    obtain ⟨c, _, rfl⟩ := Option.map_eq_some_iff.mp turned
    rfl
  | drainTasksFor timeout =>
    obtain ⟨e', turned, rfl⟩ := Option.map_eq_some_iff.mp taken
    obtain ⟨served', later⟩ := served.turn turned (fun _ _ _ _ other => nomatch other)
    refine ⟨served', later, DispatchChoice.noConfusion, ?_⟩
    obtain ⟨c, _, rfl⟩ := Option.map_eq_some_iff.mp turned
    rfl

theorem buildMapJob_submits {s s' : Scheduler} {jobId : String} {operation : ExecutionSpec} {data : List Val}
    {numPartitions : Int} {outcome : Except PyError (List (TaskId × Task))}
    (built : buildMapJob rt s jobId operation data numPartitions = (outcome, s')) :
    ∃ submissions, s' = (submitAll s submissions).2 := by
  unfold buildMapJob at built
  split at built
  · cases built
    exact ⟨[], rfl⟩
  · split at built
    · cases built
      exact ⟨[], rfl⟩
    · exact ⟨_, (congrArg Prod.snd built).symm⟩

/-- The turns before one that raises by itself are submissions. -/
theorem submitEach_submits (s : Scheduler) (requests : List (Except PyError Submission)) :
    ∃ submissions, (submitEach s requests).2 = (submitAll s submissions).2 := by
  induction requests generalizing s with
  | nil => exact ⟨[], rfl⟩
  | cons request rest ih =>
    cases request with
    | error e => exact ⟨[], rfl⟩
    | ok next =>
      cases submitted : s.submitTask next.taskId next.taskType next.payload with
      | mk outcome s' =>
        cases outcome with
        | error e => exact ⟨[next], by simp only [submitEach, submitAll, submitted]⟩
        | ok task =>
          obtain ⟨submissions, same⟩ := ih s'
          exact ⟨next :: submissions, by simp only [submitEach, submitAll, submitted, same]⟩

theorem buildReduceJob_submits {s s' : Scheduler} {jobId : String} {grouped : ObjectDict (List Val)}
    {operation : ExecutionSpec} {outcome : Except PyError (List (Key × TaskId))}
    (built : buildReduceJob rt s jobId grouped operation = (outcome, s')) :
    ∃ submissions, s' = (submitAll s submissions).2 := by
  unfold buildReduceJob at built
  split at built
  · cases built
    exact ⟨[], rfl⟩
  · cases built
    exact submitEach_submits s _

theorem Served.startJob (served : Served floatRepr rt e) {spec : JobSpec}
    (taken : e.startJob floatRepr rt spec order now = some e') : Served floatRepr rt e' ∧ e.Later e' := by
  unfold Engine.startJob at taken
  split at taken
  · rename_i error s built
    cases taken
    obtain ⟨submissions, rfl⟩ := buildMapJob_submits built
    obtain ⟨served', later⟩ := served.submitted submissions
    exact ⟨served'.withJobs _, later.withJobs _⟩
  · rename_i tasks s built
    split at taken
    · obtain ⟨next, dispatched, rfl⟩ := Option.map_eq_some_iff.mp taken
      obtain ⟨submissions, rfl⟩ := buildMapJob_submits built
      obtain ⟨submitted, first⟩ := served.submitted submissions
      obtain ⟨served', second, _⟩ := submitted.dispatch dispatched
      exact ⟨served'.withJobs _, (first.trans second).withJobs _⟩
    · cases taken

theorem Served.startReduce (served : Served floatRepr rt e) {j : Nat} {job : Job} {tasks : List (TaskId × Task)}
    {responses : List Message} (taken : e.startReduce floatRepr rt j job tasks responses order now = some e') :
    Served floatRepr rt e' ∧ e.Later e' := by
  unfold Engine.startReduce at taken
  dsimp only at taken
  split at taken
  · cases taken
    exact ⟨served.withJobs _, (Later.refl e).withJobs _⟩
  · split at taken
    · rename_i error s built
      cases taken
      obtain ⟨submissions, rfl⟩ := buildReduceJob_submits built
      obtain ⟨served', later⟩ := served.submitted submissions
      exact ⟨served'.withJobs _, later.withJobs _⟩
    · rename_i reduceTasks s built
      split at taken
      · obtain ⟨next, dispatched, rfl⟩ := Option.map_eq_some_iff.mp taken
        obtain ⟨submissions, rfl⟩ := buildReduceJob_submits built
        obtain ⟨submitted, first⟩ := served.submitted submissions
        obtain ⟨served', second, _⟩ := submitted.dispatch dispatched
        exact ⟨served'.withJobs _, (first.trans second).withJobs _⟩
      · cases taken

theorem Served.resumeJob (served : Served floatRepr rt e) {j : Nat} {job : Job}
    (taken : e.resumeJob floatRepr rt j job order now = some e') : Served floatRepr rt e' ∧ e.Later e' := by
  have alone (job : Job) : Served floatRepr rt (e.setJob j job) ∧ e.Later (e.setJob j job) :=
    ⟨served.withJobs _, (Later.refl e).withJobs _⟩
  unfold Engine.resumeJob at taken
  split at taken
  · split at taken
    · exact served.startReduce taken
    · cases taken
      exact alone _
    · cases taken
  · split at taken
    · cases taken
      exact alone _
    · cases taken
      exact alone _
    · cases taken
  · cases taken

theorem Served.step (served : Served floatRepr rt e) {a : EngineAction} (taken : e.step floatRepr rt a = some e') :
    Served floatRepr rt e' ∧ e.Later e' := by
  cases a with
  | connect workerId host port =>
    refine served.turn taken fun _ _ _ _ same => ?_
    cases same
    rfl
  | cluster a =>
    simp only [Engine.step] at taken
    split at taken
    · cases taken
    · rename_i other
      refine served.turn taken fun _ _ _ _ same => ?_
      rw [same] at other
      exact absurd rfl other
  | waitForTasks taskIds =>
    obtain ⟨served', later, _⟩ := served.waitForTasks taken
    exact ⟨served', later⟩
  | caller a =>
    simp only [Engine.step] at taken
    split at taken
    · rename_i turned
      obtain ⟨r, stepped, rfl⟩ := Option.map_eq_some_iff.mp taken
      exact served.caller turned stepped
    · cases taken
  | startJob spec order now => exact served.startJob taken
  | resumeJob j order now =>
    obtain ⟨job, _, resumed⟩ := Option.bind_eq_some_iff.mp taken
    exact served.resumeJob resumed

theorem served_of_run {ok : Engine → EngineAction → Prop} (run : Steps (Engine.step floatRepr rt) ok initial e) :
    Served floatRepr rt e :=
  run.invariant (I := Served floatRepr rt) served_initial (fun _ _ _ served _ taken => (served.step taken).1)

/-! ### What the calls return -/

section Answers
variable {t : TaskId} {response other : Message}

theorem Served.recorded (served : Served floatRepr rt e) (logged : (t, response) ∈ e.registry.log) :
    response ∈ e.cluster.master.recordedResponses t := by
  rw [served.logged] at logged
  obtain ⟨event, member, recorded⟩ := List.mem_filterMap.mp logged
  refine List.mem_filterMap.mpr ⟨event, member, ?_⟩
  cases event with
  | recorded u _ =>
    cases recorded
    exact if_pos rfl
  | registered | sent => cases recorded

theorem Served.logged_once (served : Served floatRepr rt e) (first : (t, response) ∈ e.registry.log)
    (second : (t, other) ∈ e.registry.log) : response = other := by
  have once : (e.cluster.master.recordedResponses t).length ≤ 1 :=
    ((Master.fenced_of_run (Cluster.master_of_run served.run)).leases t).once
  have one := served.recorded first
  have two := served.recorded second
  generalize e.cluster.master.recordedResponses t = recorded at once one two
  cases recorded with
  | nil => cases one
  | cons only rest =>
    obtain rfl : rest = [] := List.eq_nil_of_length_eq_zero (Nat.le_zero.mp (Nat.le_of_succ_le_succ once))
    rw [List.mem_singleton.mp one, List.mem_singleton.mp two]

theorem Served.tells (served : Served floatRepr rt e) (logged : (t, response) ∈ e.registry.log) :
    Cluster.Tells floatRepr rt e.cluster.master t response :=
  Cluster.tells_of_founded served.run served.uniform
    ((Cluster.backed_of_run served.run).recorded (served.recorded logged))

/-- Whatever dispatch function a job is given, the responses it gets tell what was done
with the tasks; those of `wait_for_tasks` are the recorded ones, one for each task. -/
theorem Served.outcome (served : Served floatRepr rt e) {choice : DispatchChoice} {taskIds : List TaskId}
    {ticket : Ticket} {responses : List Message} (awaits : e.Awaits choice taskIds ticket)
    (done : e.outcome? ticket = some (.ok responses)) :
    (∀ response ∈ responses, ∃ t, Cluster.Tells floatRepr rt e.cluster.master t response) ∧
      (choice = .waitForTasks → ∀ t ∈ taskIds, ∃ response, lastAnswer t responses = some response ∧
        (t, response) ∈ e.registry.log) := by
  cases ticket with
  | drain i =>
    refine ⟨fun response member => ?_, fun waits => absurd waits awaits⟩
    simp only [Engine.outcome?] at done
    split at done
    · rename_i drain there
      have founded : ∃ t, Cluster.Founded floatRepr e.cluster t response := by
        split at done
        · cases done
          exact Cluster.drained_of_run served.run there member
        · cases done
          exact Cluster.drained_of_run served.run there member
        · cases done
        · cases done
      obtain ⟨t, founded⟩ := founded
      exact ⟨t, Cluster.tells_of_founded served.run served.uniform founded⟩
    · cases done
  | caller c =>
    obtain ⟨caller, there, rfl⟩ := awaits
    simp only [Engine.outcome?, there, Option.map_some] at done
    split at done
    · rename_i answers returned
      cases done
      have sourced := Registry.sourced_of_run served.calls
      have all := sourced.returned caller (List.mem_iff_getElem?.mpr ⟨c, there⟩) _ (Option.some.inj returned)
      have tells : ∀ response ∈ responses, ∃ t, (t, response) ∈ e.registry.log := by
        intro response member
        obtain ⟨t, _, logged⟩ := exists_right_of_forall₂ all.flip member
        exact ⟨t, logged⟩
      refine ⟨fun response member => ?_, fun _ t asked => ?_⟩
      · obtain ⟨t, logged⟩ := tells response member
        exact ⟨t, served.tells logged⟩
      · obtain ⟨response, member, logged⟩ := exists_right_of_forall₂ all asked
        have about := (served.tells logged).about
        refine ⟨response, lastAnswer_of_only member about fun other listed about => ?_, logged⟩
        obtain ⟨u, logged'⟩ := tells other listed
        obtain rfl := about_unique (served.tells logged').about about
        exact served.logged_once logged' logged
    · cases done
    · cases done

end Answers

/-- A worker connects and registers. -/
def enrol : List EngineAction :=
  [.connect "w" "127.0.0.1" 6001] ++
    ([.worker 0 (.ping "1"), .deliver 0 0, .master (.replySent 0), .worker 0 (.read "2"), .deliver 0 0,
      .master (.replySent 0), .worker 0 (.read "3")] : List ClusterAction).map .cluster

/-- The dispatcher hands a task to the worker, and its result is recorded. -/
def serveNext (d : DispatchId) : List EngineAction :=
  ([.master .dispatcherTick, .master (.startDispatch d 1000), .worker 0 (.read "4"), .worker 0 .execute,
    .deliver 0 10, .master (.sendDrained d), .master (.resumeDispatch d)] : List ClusterAction).map .cluster

/-- A caller submits an addition and waits for it. -/
def sumRun : List EngineAction :=
  enrol ++
    [.cluster (.master (.submitTask "t" "ADD" [(.str "a", .int 2), (.str "b", .int 3)])), .waitForTasks ["t"]] ++
    serveNext 0 ++ [.caller (.gatherEnds 0), .caller (.resume 0)]

/-- The call returned one response, and its result is 5. -/
def gaveFive (caller : Caller) : Bool :=
  match caller.pc with
  | .returned [response] => caller.taskIds = ["t"] && Cluster.isFive response
  | _ => false

end Engine
end DistributedCompute
