import DistributedCompute.ClusterRuns

/-! What the callers of the master get from a cluster of workers, in every run: whatever
is recorded for a task was computed by a worker that executed the current attempt of the
task, or says that no worker could be reached; no attempt is executed twice; and what a
worker reads is what it waits for. -/
namespace DistributedCompute
open Py Relation Transition

variable {floatRepr : BitVec 64 → String}

namespace Cluster
variable {c c' : Cluster}

/-! ### Where a response comes from -/

/-- A worker executed a TASK for `t`, and its reply arrived as `response`. -/
def Computed (floatRepr : BitVec 64 → String) (c : Cluster) (t : TaskId) (response : Message) : Prop :=
  ∃ (l : LinkId) (p : Peer) (task : TaskMessage) (reply : Message), c.peers[l]? = some p ∧ task ∈ p.served ∧
    task.taskId = t ∧ p.runtime.serveTask task = some reply ∧ response = reply.overWire floatRepr

def Founded (floatRepr : BitVec 64 → String) (c : Cluster) (t : TaskId) (response : Message) : Prop :=
  (∃ attempt reason, response = Master.workerUnreachable t attempt reason) ∨ Computed floatRepr c t response

theorem runtime_send (p : Peer) (message : Message) (next : PeerPhase) :
    (p.send floatRepr message next).runtime = p.runtime ∧ (p.send floatRepr message next).served = p.served := by
  unfold Peer.send
  split <;> exact ⟨rfl, rfl⟩

theorem served_of_does {p p' : Peer} (does : Peer.Does floatRepr p p') :
    p'.runtime = p.runtime ∧ ∀ task ∈ p.served, task ∈ p'.served := by
  cases does with
  | pings | registers | reports =>
    rw [(runtime_send _ _ _).1, (runtime_send _ _ _).2]
    exact ⟨rfl, fun _ done => done⟩
  | answers =>
    rw [(runtime_send _ _ _).1, (runtime_send _ _ _).2]
    exact ⟨rfl, fun _ done => List.mem_append_left _ done⟩
  | breaks => exact ⟨rfl, fun _ done => List.mem_append_left _ done⟩
  | enters | ignores | begins | fails => exact ⟨rfl, fun _ done => done⟩

/-- Workers stay, with their code and what they have executed. -/
theorem Change.later (joined : Joined floatRepr c) (change : Change floatRepr c c') {l : LinkId} {p : Peer}
    (here : c.peers[l]? = some p) : ∃ p', c'.peers[l]? = some p' ∧ p'.runtime = p.runtime ∧
      ∀ task ∈ p.served, task ∈ p'.served := by
  cases change with
  | connects =>
    refine ⟨p, ?_, rfl, fun _ done => done⟩
    rw [List.getElem?_append_left (List.getElem?_eq_some_iff.mp here).1]
    exact here
  | takes =>
    rw [peers_write, here]
    exact ⟨_, rfl, rfl, fun _ done => done⟩
  | @delivers k q document rest message now m there said decoded taken =>
    rw [peers_write, List.getElem?_modify, here]
    by_cases same : k = l
    · subst same
      exact ⟨_, rfl, by simp, by simp⟩
    · exact ⟨_, rfl, by simp [same], by simp [same]⟩
  | refuses there member refused _ =>
    obtain ⟨message, decoded, _⟩ := (joined.honest there).outbox _ member
    cases refused.symm.trans decoded
  | @acts k q q' there does =>
    rw [List.getElem?_modify, here]
    by_cases same : k = l
    · subst same
      obtain rfl := Option.some.inj (there.symm.trans here)
      exact ⟨q', by simp, served_of_does does⟩
    · exact ⟨p, by simp [same], rfl, fun _ done => done⟩

theorem Founded.later (joined : Joined floatRepr c) (change : Change floatRepr c c') {t : TaskId} {response : Message}
    (founded : Founded floatRepr c t response) : Founded floatRepr c' t response := by
  refine founded.imp id ?_
  rintro ⟨l, p, task, reply, here, done, mine, computed, same⟩
  obtain ⟨p', here', runtime, kept⟩ := change.later joined here
  exact ⟨l, p', task, reply, here', kept task done, mine, runtime ▸ computed, same⟩

/-- A TASK that a worker has executed was written on its link. -/
theorem Joined.sent (joined : Joined floatRepr c) {l : LinkId} {p : Peer} {task : TaskMessage}
    (here : c.peers[l]? = some p) (done : task ∈ p.served) : task ∈ c.master.sentTasks floatRepr l := by
  have bound : l < c.master.links.length := joined.paired ▸ (List.getElem?_eq_some_iff.mp here).1
  have stream := joined.stream (List.getElem?_eq_getElem bound) here
  exact stream.begun.subset (p.served_prefix_begun.subset done)

/-- A message that resolves a call for `t` is the result of a TASK for `t`. -/
theorem Joined.resolved (joined : Joined floatRepr c) {l : LinkId} {p : Peer} {document : Json} {message : Message}
    {t : TaskId} (here : c.peers[l]? = some p) (said : document ∈ p.outbox)
    (decoded : decodeMessage document = .ok message) (resolves : c.master.Resolves l message t) :
    Computed floatRepr c t message := by
  obtain ⟨_, _, attempt, _, _, belongs⟩ := resolves
  obtain ⟨other, same, meant⟩ := (joined.honest here).outbox document said
  cases decoded.symm.trans same
  rcases meant with ⟨uuid, request⟩ | ⟨task, done, reply, computed, rfl⟩
  · exact absurd (request.symm.trans belongs) (newRequestId_ne_attempt uuid t attempt)
  · obtain ⟨u, number, record, _, _, rfl⟩ := Master.mem_sentTasks.mp (joined.sent here done)
    obtain ⟨fields, _, rfl⟩ := serveTask_reply computed
    obtain ⟨rfl, _⟩ := attemptRequestId_injective belongs
    exact ⟨l, p, _, _, here, done, rfl, computed, rfl⟩

theorem Backed.change (joined : Joined floatRepr c) (wired : c.master.Wired)
    (backed : c.master.Backed (Founded floatRepr c)) (change : Change floatRepr c c') :
    c'.master.Backed (Founded floatRepr c') := by
  have kept : c.master.Backed (Founded floatRepr c') := backed.mono fun _ _ founded => founded.later joined change
  have unreachable : ∀ t attempt reason, Founded floatRepr c' t (Master.workerUnreachable t attempt reason) :=
    fun _ attempt reason => .inl ⟨attempt, reason, rfl⟩
  have change' := change
  cases change with
  | connects => exact kept.step wired unreachable (fun _ _ _ _ received => nomatch received) (a := .accept) rfl
  | @takes a m internal taken =>
    refine kept.step wired unreachable (fun _ _ _ _ received => ?_) taken
    rw [received] at internal
    cases internal
  | @delivers l p document rest message now m here said decoded taken =>
    refine kept.step wired unreachable (fun k other later t received resolves => ?_) taken
    cases received
    have member : document ∈ p.outbox := said ▸ List.mem_cons_self
    exact Founded.later joined change' (.inr (joined.resolved here member decoded resolves))
  | refuses there member refused _ =>
    obtain ⟨message, decoded, _⟩ := (joined.honest there).outbox _ member
    cases refused.symm.trans decoded
  | acts => exact kept

theorem backed_of_run {ok : Cluster → ClusterAction → Prop} (run : Steps (step floatRepr) ok initial c) :
    c.master.Backed (Founded floatRepr c) :=
  run.invariant_with (I := fun c => c.master.Backed (Founded floatRepr c))
    (fun _ before => And.intro (joined_of_run before) (Master.fenced_of_run (master_of_run before)).base.wired)
    (Master.backed_initial _)
    (fun _ _ _ known backed _ taken => Backed.change known.1 known.2 backed (change_of_step taken))

/-! ### What is recorded -/

end Cluster

/-- The response tells what `execute_task` did with the task, as its payload and the
result look after the wire. -/
def Runtime.Reflects (floatRepr : BitVec 64 → String) (rt : Runtime) (task : Task) (response : Message) : Prop :=
  match rt.runTask task.taskType (wireEntries floatRepr task.payload) with
  | .ok value => response.isSuccess = true ∧ response.get? "result" = some (value.document floatRepr).loads
  | .error (.execution code message) => response.isSuccess = false ∧
      response.get? "code" = some (.str code.name) ∧ response.get? "message" = some (.str message)
  | .error (.other _) => False

theorem reflects_of_reply {rt : Runtime} {task : Task} {message : TaskMessage} {reply : Message}
    (typed : message.taskType = task.taskType) (filled : message.taskPayload = wireEntries floatRepr task.payload)
    (served : rt.serveTask message = some reply) : rt.Reflects floatRepr task (reply.overWire floatRepr) := by
  obtain ⟨fields, returned, rfl⟩ := serveTask_reply served
  have text (s : String) : ((Val.str s).document floatRepr).loads = .str s := by simp [Val.document, Json.loads]
  unfold Runtime.executeTask at returned
  split at returned
  · rename_i value ran
    cases returned
    unfold Runtime.Reflects
    rw [← typed, ← filled, ran]
    simp [Message.isSuccess, Message.get?, field, Message.overWire, TaskMessage.reply, buildMessage, text]
  · rename_i code text' ran
    cases returned
    unfold Runtime.Reflects
    rw [← typed, ← filled, ran]
    simp [Message.isSuccess, Message.get?, field, Message.overWire, TaskMessage.reply, buildMessage, text]
  · cases returned

namespace Cluster

/-- Where a response that was recorded comes from. -/
theorem source_of_recorded {ok : Cluster → ClusterAction → Prop} (run : Steps (step floatRepr) ok initial c)
    {t : TaskId} {response : Message} (recorded : response ∈ c.master.recordedResponses t) :
    ∃ task, c.master.tasks.get? t = some task ∧ task.status.terminal = true ∧
      (task.status = .completed ↔ response.isSuccess = true) ∧
      ((∃ reason, response = Master.workerUnreachable t task.attempt reason) ∨
        ∃ (l : LinkId) (p : Peer), c.peers[l]? = some p ∧ Event.sent t task.attempt l ∈ c.master.history ∧
          p.runtime.Reflects floatRepr task response) := by
  have joined := joined_of_run run
  obtain ⟨task, found, ended, belongs, agrees⟩ :=
    Master.recorded_agrees (Master.fenced_of_run (master_of_run run)) recorded
  refine ⟨task, found, ended, agrees, ?_⟩
  rcases (backed_of_run run).recorded recorded with
    ⟨attempt, reason, rfl⟩ | ⟨l, p, message, reply, here, done, rfl, computed, rfl⟩
  · obtain ⟨_, rfl⟩ := attemptRequestId_injective belongs
    exact .inl ⟨reason, rfl⟩
  · obtain ⟨u, attempt, record, sent, known, rfl⟩ := Master.mem_sentTasks.mp (joined.sent here done)
    obtain rfl : record = task := Option.some.inj (known.symm.trans found)
    obtain ⟨_, same, rfl⟩ := serveTask_reply computed
    obtain ⟨_, rfl⟩ := attemptRequestId_injective belongs
    exact .inr ⟨l, p, here, sent, reflects_of_reply rfl rfl computed⟩

/-- A worker registers and adds two numbers. -/
def additionRun : List ClusterAction :=
  [.connect bareRuntime "w" "127.0.0.1" 6001, .worker 0 (.ping "1"), .deliver 0 0, .master (.replySent 0),
    .worker 0 (.read "2"), .deliver 0 0, .master (.replySent 0), .worker 0 (.read "3"),
    .master (.submitTask "t" "ADD" [(.str "a", .int 2), (.str "b", .int 3)]), .master .startDispatcher,
    .master .dispatcherTick, .master (.startDispatch 0 1000), .worker 0 (.read "4"), .worker 0 .execute,
    .deliver 0 10, .master (.sendDrained 0), .master (.resumeDispatch 0)]

def isFive (response : Message) : Bool :=
  match response.get? "result" with
  | some (.int 5) => true
  | _ => false

end Cluster

/-! ### Each attempt is executed once -/

/-- The attempts a worker has executed. -/
def Peer.executions (p : Peer) : List (TaskId × Nat) := p.served.map (fun task => (task.taskId, task.attempt))

/-- The attempt that is sent, with its link. -/
def Event.sending : Event → Option ((TaskId × Nat) × LinkId)
  | .sent t attempt l => some ((t, attempt), l)
  | _ => none

theorem sends_nodup {events : List Event} (once : ∀ t, (events.filterMap (Event.sentOf t)).Nodup) :
    ((events.filterMap Event.sending).map Prod.fst).Nodup := by
  induction events with
  | nil => exact List.nodup_nil
  | cons event rest ih =>
    have later : ∀ t, (rest.filterMap (Event.sentOf t)).Nodup := fun t =>
      (once t).sublist ((List.sublist_cons_self event rest).filterMap _)
    cases event with
    | registered | recorded => exact ih later
    | sent t attempt l =>
      refine List.nodup_cons.mpr ⟨?_, ih later⟩
      intro again
      obtain ⟨e, member, same⟩ := List.mem_map.mp again
      obtain ⟨other, there, sends⟩ := List.mem_filterMap.mp member
      have first := once t
      rw [List.filterMap_cons_some (b := attempt) (by simp [Event.sentOf])] at first
      refine (List.nodup_cons.mp first).1 (List.mem_filterMap.mpr ⟨other, there, ?_⟩)
      cases other with
      | registered | recorded => cases sends
      | sent u number k =>
        cases sends
        cases same
        exact if_pos rfl

theorem sentOn_eq (events : List Event) (l : LinkId) : events.filterMap (Event.sentOn l) =
    ((events.filterMap Event.sending).filter (fun e => e.2 = l)).map Prod.fst := by
  induction events with
  | nil => rfl
  | cons event rest ih =>
    cases event with
    | registered | recorded => exact ih
    | sent t attempt k =>
      by_cases same : k = l
      · simp [Event.sentOn, Event.sending, same, ih]
      · simp [Event.sentOn, Event.sending, same, ih]

namespace Master
variable {m : Master} {l k : LinkId} {e : TaskId × Nat}

theorem sends_once (fenced : m.Fenced) : ((m.history.filterMap Event.sending).map Prod.fst).Nodup :=
  sends_nodup fun t => (fenced.leases t).increasing.imp (fun below => Nat.ne_of_lt below)

/-- An attempt is sent on one link, once. -/
theorem sentOn_nodup (fenced : m.Fenced) (l : LinkId) : (m.sentOn l).Nodup := by
  rw [sentOn, sentOn_eq]
  exact (sends_once fenced).sublist (List.filter_sublist.map _)

theorem link_of_sent (fenced : m.Fenced) (here : e ∈ m.sentOn l) (there : e ∈ m.sentOn k) : l = k := by
  have noted : ∀ {j : LinkId}, e ∈ m.sentOn j → (e, j) ∈ m.history.filterMap Event.sending := by
    intro j member
    rw [sentOn, sentOn_eq] at member
    obtain ⟨⟨f, i⟩, kept, rfl⟩ := List.mem_map.mp member
    obtain ⟨found, chosen⟩ := List.mem_filter.mp kept
    obtain rfl : i = j := of_decide_eq_true chosen
    exact found
  have same := List.inj_on_of_nodup_map (sends_once fenced) (noted here) (noted there) rfl
  exact (Prod.mk.inj same).2

theorem attempt_bounds {t : TaskId} {attempt : Nat} (fenced : m.Fenced) (sent : (t, attempt) ∈ m.sentOn l) :
    1 ≤ attempt ∧ attempt ≤ maxTaskAttempts := by
  have sound := fenced.leases t
  obtain ⟨low, high, _⟩ := sound.sent attempt (attempt_of_sent sent)
  refine ⟨low, Nat.le_trans high ?_⟩
  by_cases waiting : (m.lease t).status = .waiting
  · exact Nat.le_of_lt (sound.waiting waiting).2
  · exact (sound.started waiting).2

theorem keys_sentTasks (floatRepr : BitVec 64 → String) (fenced : m.Fenced) (l : LinkId) :
    (m.sentTasks floatRepr l).map (fun task => (task.taskId, task.attempt)) = m.sentOn l := by
  rw [sentTasks, List.map_filterMap]
  refine (List.filterMap_congr fun e member => ?_).trans (List.filterMap_some ..)
  obtain ⟨task, found⟩ := task_of_sent fenced member
  simp [found, TaskMessage.ofTask]

end Master

namespace Cluster

theorem Joined.executions (joined : Joined floatRepr c) (fenced : c.master.Fenced) {l : LinkId} {p : Peer}
    (here : c.peers[l]? = some p) :
    p.served <+: c.master.sentTasks floatRepr l ∧ p.executions <+: c.master.sentOn l := by
  have bound : l < c.master.links.length := joined.paired ▸ (List.getElem?_eq_some_iff.mp here).1
  have ordered := p.served_prefix_begun.trans (joined.stream (List.getElem?_eq_getElem bound) here).begun
  refine ⟨ordered, ?_⟩
  rw [← Master.keys_sentTasks floatRepr fenced l]
  exact ordered.map _

/-- No attempt of a task is executed twice, by whatever worker; a worker executes what was
sent to it, in that order; and a task is executed at most as often as it may be tried. -/
theorem executed_once (run : Steps (step floatRepr) anyTurn initial c) :
    (c.peers.flatMap Peer.executions).Nodup ∧
    (∀ (l : LinkId) (p : Peer), c.peers[l]? = some p → p.served <+: c.master.sentTasks floatRepr l) ∧
    ∀ t, ((c.peers.flatMap Peer.executions).filter (fun e => e.1 = t)).length ≤ maxTaskAttempts := by
  have joined := joined_of_run run
  have fenced := Master.fenced_of_run (master_of_run run)
  have distinct : (c.peers.flatMap Peer.executions).Nodup := by
    refine List.nodup_flatMap.mpr ⟨fun p member => ?_, List.pairwise_iff_getElem.mpr fun i j low high below => ?_⟩
    · obtain ⟨l, here⟩ := List.mem_iff_getElem?.mp member
      exact (Master.sentOn_nodup fenced l).sublist (joined.executions fenced here).2.sublist
    · intro e first second
      have here := (joined.executions fenced (List.getElem?_eq_getElem low)).2.subset first
      have there := (joined.executions fenced (List.getElem?_eq_getElem high)).2.subset second
      exact absurd (Master.link_of_sent fenced here there) (Nat.ne_of_lt below)
  refine ⟨distinct, fun l p here => (joined.executions fenced here).1, fun t => ?_⟩
  -- the executions of `t` differ in their attempts, and there are so many attempts only
  have attempts : (((c.peers.flatMap Peer.executions).filter (fun e => e.1 = t)).map Prod.snd).Nodup := by
    refine (distinct.filter _).map_on fun e first f second same => ?_
    have mine : e.1 = t := of_decide_eq_true (List.mem_filter.mp first).2
    have also : f.1 = t := of_decide_eq_true (List.mem_filter.mp second).2
    exact Prod.ext (mine.trans also.symm) same
  have within : ((c.peers.flatMap Peer.executions).filter (fun e => e.1 = t)).map Prod.snd ⊆
      List.range' 1 maxTaskAttempts := by
    intro attempt member
    obtain ⟨⟨u, number⟩, kept, rfl⟩ := List.mem_map.mp member
    obtain ⟨p, listed, done⟩ := List.mem_flatMap.mp (List.mem_filter.mp kept).1
    obtain ⟨l, here⟩ := List.mem_iff_getElem?.mp listed
    obtain ⟨low, high⟩ := Master.attempt_bounds fenced ((joined.executions fenced here).2.subset done)
    rw [List.mem_range'_1]
    omega
  simpa using (attempts.subperm within).length_le

theorem additionRun_once : ∃ c : Cluster, Steps (step fun _ => "") anyTurn initial c ∧
    c.peers.flatMap Peer.executions = [("t", 1)] ∧ (c.peers.flatMap Peer.executions).Nodup := by
  obtain ⟨c, run, once⟩ : ∃ c, Steps (step fun _ => "") anyTurn initial c ∧
      c.peers.flatMap Peer.executions = [("t", 1)] := replay_reaches additionRun (by decide +kernel)
  exact ⟨c, run, once, (executed_once run).1⟩

/-! ### What a worker reads -/

end Cluster
end DistributedCompute
