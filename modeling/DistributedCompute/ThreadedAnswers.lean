import DistributedCompute.ClusterAnswers
import DistributedCompute.Conversations
import DistributedCompute.Futures
import DistributedCompute.ThreadedDiscipline

/-! The connections of the threaded master when one caller dispatches at a time. Each
carries one conversation, so a thread that has sent a TASK reads the answer to it. -/
namespace DistributedCompute
open Py Relation Transition

/-! ### What a later state keeps -/

/-- The connection is to the same worker, which has done what it had done. -/
structure Session.Keeps (session session' : Session) : Prop where
  runtime : session'.peer.runtime = session.peer.runtime
  workerId : session'.peer.workerId = session.peer.workerId
  served : session.peer.served ⊆ session'.peer.served
  enlisted : ∀ w, session.phase = .enlisted w → session'.phase = .enlisted w

namespace Session
variable {session session' session'' : Session}

theorem Keeps.refl (session : Session) : session.Keeps session :=
  ⟨rfl, rfl, List.Subset.refl _, fun _ same => same⟩

theorem Keeps.trans (first : session.Keeps session') (second : session'.Keeps session'') : session.Keeps session'' :=
  ⟨second.runtime.trans first.runtime, second.workerId.trans first.workerId,
    fun _ member => second.served (first.served member), fun w same => second.enlisted w (first.enlisted w same)⟩

theorem keeps_hears (session : Session) (documents : List Json) : session.Keeps (session.hears documents) := by
  unfold hears
  split
  · exact .refl session
  · exact ⟨rfl, rfl, List.Subset.refl _, fun _ same => same⟩

theorem hears_frame (session : Session) (documents : List Json) :
    (session.hears documents).garbled = session.garbled ∧ (session.hears documents).phase = session.phase ∧
      (session.hears documents).peer.workerId = session.peer.workerId := by
  unfold hears
  split <;> exact ⟨rfl, rfl, rfl⟩

theorem keeps_phase {phase : SessionPhase} (session : Session) (early : ∀ w, session.phase ≠ .enlisted w) :
    session.Keeps { session with phase } :=
  ⟨rfl, rfl, List.Subset.refl _, fun w same => absurd same (early w)⟩

theorem keeps_acted {floatRepr : BitVec 64 → String} {peer : Peer} (session : Session)
    (blocking : Peer.Blocking floatRepr session.peer peer) : session.Keeps (session.acted peer) := by
  obtain ⟨workerId, runtime, _, served⟩ := session.identity_acted blocking
  exact ⟨runtime, workerId, served, fun _ same => same⟩

end Session

namespace ThreadedMaster
variable {floatRepr : BitVec 64 → String} {m m' : ThreadedMaster} {d : ThreadId} {thread : DispatchThread}
  {a : ThreadedAction} {c : ConnId} {session : Session}

/-- Connections stay, and so do the type and the payload of a task. -/
structure Since (m m' : ThreadedMaster) : Prop where
  sessions : ∀ (c : ConnId) (session : Session), m.sessions[c]? = some session →
    ∃ session', m'.sessions[c]? = some session' ∧ session.Keeps session'
  work : ∀ t task, m.tasks.get? t = some task → ∃ task', m'.tasks.get? t = some task' ∧
    task'.taskType = task.taskType ∧ task'.payload = task.payload

variable {task : Task} {now : Time} {session' : Session} {locals : Capture}

/-- What one change makes of a record. -/
theorem work_of_change {l l' : Ledger} (change : Ledger.Change l l') {t : TaskId}
    (found : l.1.tasks.get? t = some task) : ∃ task', l'.1.tasks.get? t = some task' ∧
      task'.taskType = task.taskType ∧ task'.payload = task.payload := by
  have restatus {s : Scheduler} (u : TaskId) (status : TaskStatus) (found : s.tasks.get? t = some task) :
      ∃ task', (s.setTaskStatus u status).tasks.get? t = some task' ∧ task'.taskType = task.taskType ∧
        task'.payload = task.payload := by
    refine ⟨_, (Ledger.get?_restatus ..).trans (congrArg (Option.map _) found), ?_⟩
    unfold Ledger.restatus
    split <;> exact ⟨rfl, rfl⟩
  have takenBack {held : Prop} [Decidable held] : (if held then task.takenBack else task).taskType = task.taskType ∧
      (if held then task.takenBack else task).payload = task.payload := by
    split <;> exact ⟨rfl, rfl⟩
  cases change with
  | request _ => exact ⟨task, found, rfl, rfl⟩
  | submit absent =>
    refine ⟨task, ?_, rfl, rfl⟩
    rw [Dict.get?_insert, if_neg, found]
    rintro rfl
    exact Option.some_ne_none _ (found.symm.trans absent)
  | stale timeout now =>
    exact ⟨_, (Scheduler.get?_condemnStale ..).trans (congrArg (Option.map _) found), takenBack⟩
  | @assign s s' ts u grants =>
    obtain ⟨w, record, _, there, _, _, _, rfl⟩ := grants
    by_cases same : t = u
    · exact ⟨_, (Scheduler.get?_grant ..).trans ((if_pos same).trans (congrArg (Option.map _) found)), rfl, rfl⟩
    · exact ⟨task, (Scheduler.get?_grant ..).trans ((if_neg same).trans found), rfl, rfl⟩
  | turn here progress =>
    cases progress with
    | begins _ _ _ | works _ _ | ends _ _ _ => exact ⟨task, found, rfl, rfl⟩
    | starts _ _ _ | abandons _ _ _ _ _ _ => exact restatus _ _ found
    | finishes _ _ _ _ _ =>
      rw [Scheduler.released_tasks]
      exact restatus _ _ found
    | condemns _ _ _ _ =>
      exact ⟨_, (Scheduler.get?_condemned ..).trans (congrArg (Option.map _) found), takenBack⟩

theorem work_of_changes {l l' : Ledger} (changes : ReflTransGen Ledger.Change l l') {t : TaskId}
    (found : l.1.tasks.get? t = some task) : ∃ task', l'.1.tasks.get? t = some task' ∧
      task'.taskType = task.taskType ∧ task'.payload = task.payload := by
  induction changes with
  | refl => exact ⟨task, found, rfl, rfl⟩
  | tail _ change ih =>
    obtain ⟨task', found', typed, filled⟩ := ih
    obtain ⟨task'', found'', typed', filled'⟩ := work_of_change change found'
    exact ⟨task'', found'', typed'.trans typed, filled'.trans filled⟩

/-! ### What a step does to the connections -/

theorem sessions_setSession (here : m.sessions[c]? = some session) (f : Session → Session) :
    (m.setSession c f).sessions = m.sessions.set c (f session) := by
  unfold ThreadedMaster.setSession
  rw [List.modify_eq_set_getElem?, here]
  rfl

/-- What a turn of `accept_and_register` makes of its connection. -/
inductive Served (floatRepr : BitVec 64 → String) (m : ThreadedMaster) (session : Session) (now : Time) :
    Session → Prop
  | raises (rest : List Json) : Served floatRepr m session now { session.popped rest with phase := .raised }
  | invalid {document : Json} {rest : List Json} {text : String} (documents : List Json) :
      session.peer.outbox = document :: rest → decodeMessage document = .error (.protocolError text) →
      Served floatRepr m session now ((session.popped rest).hears documents)
  | answers {document : Json} {rest : List Json} {request response : Message} {ws : WorkerManager} :
      session.peer.outbox = document :: rest → decodeMessage document = .ok request →
      handleRequest m.workers request now = .ok (response, ws) →
      Served floatRepr m session now ((session.popped rest).hears [response.document floatRepr])
  | acknowledges {document : Json} {rest : List Json} {request response : Message} {ws : WorkerManager}
      {w : WorkerId} : session.peer.outbox = document :: rest → decodeMessage document = .ok request →
      handleRequest m.workers request now = .ok (response, ws) → request.type = .register →
      argument request "worker_id" = .str w →
      Served floatRepr m session now
        { (session.popped rest).hears [response.document floatRepr] with phase := .acknowledged w }

theorem served_of_serve {delivered : Bool} (here : m.sessions[c]? = some session)
    (taken : m.serve floatRepr c session now delivered = some m') :
    session.phase = .registering ∧ m'.connections = m.connections ∧
      ∃ session', m'.sessions = m.sessions.set c session' ∧ Served floatRepr m session now session' := by
  unfold serve at taken
  split at taken
  · rename_i document rest phase outbox _
    have bound := (List.getElem?_eq_some_iff.mp here).1
    have read : (m.popped c rest).sessions = m.sessions.set c (session.popped rest) :=
      sessions_setSession here fun session => session.popped rest
    have again (n : ThreadedMaster) {mid : Session} (sessions : n.sessions = m.sessions.set c mid)
        (f : Session → Session) : (n.setSession c f).sessions = m.sessions.set c (f mid) := by
      have here : n.sessions[c]? = some mid := by rw [sessions, List.getElem?_set_self bound]
      rw [sessions_setSession here, sessions, List.set_set]
    have raised (n : ThreadedMaster) (sessions : n.sessions = m.sessions.set c (session.popped rest)) :
        (n.setPhase c .raised).sessions = m.sessions.set c { session.popped rest with phase := .raised } :=
      again n sessions _
    refine ⟨phase, ?_⟩
    simp only at taken
    split at taken
    · rename_i text invalid
      cases taken
      split
      · exact ⟨rfl, _, again _ read _, .invalid _ outbox invalid⟩
      · exact ⟨rfl, _, raised _ read, .raises rest⟩
    · cases taken
      exact ⟨rfl, _, raised _ read, .raises rest⟩
    · rename_i request decoded
      split at taken
      · cases taken
        exact ⟨rfl, _, raised _ read, .raises rest⟩
      · rename_i response ws handled
        cases taken
        split
        · have replied := again ((m.popped c rest).setWorkers ws) read
            fun session => session.hears [response.document floatRepr]
          unfold afterReply
          split
          · rename_i w register ack named
            exact ⟨rfl, _, again _ replied _, .acknowledges outbox decoded handled register named⟩
          · exact ⟨rfl, _, replied, .answers outbox decoded handled⟩
        · exact ⟨rfl, _, raised _ read, .raises rest⟩
  · cases taken

theorem keeps_of_served (phase : session.phase = .registering) (served : Served floatRepr m session now session') :
    session.Keeps session' := by
  have popped (rest : List Json) : session.Keeps (session.popped rest) :=
    ⟨rfl, rfl, List.Subset.refl _, fun _ same => same⟩
  have early (w : WorkerId) : session.phase ≠ .enlisted w := by
    rw [phase]
    exact SessionPhase.noConfusion
  cases served with
  | raises rest => exact (popped rest).trans (Session.keeps_phase _ early)
  | invalid documents _ _ => exact (popped _).trans (Session.keeps_hears _ documents)
  | answers _ _ _ => exact (popped _).trans (Session.keeps_hears ..)
  | acknowledges _ _ _ _ _ =>
    refine ((popped _).trans (Session.keeps_hears ..)).trans (Session.keeps_phase _ fun w => ?_)
    unfold Session.hears
    split <;> exact early w

theorem sessions_kept_of_set (here : m.sessions[c]? = some session)
    (sessions : m'.sessions = m.sessions.set c session') (keeps : session.Keeps session') (k : ConnId) (x : Session)
    (there : m.sessions[k]? = some x) : ∃ x', m'.sessions[k]? = some x' ∧ x.Keeps x' := by
  rw [sessions]
  by_cases same : k = c
  · subst same
    obtain rfl := Option.some.inj (here.symm.trans there)
    exact ⟨session', List.getElem?_set_self (List.getElem?_eq_some_iff.mp here).1, keeps⟩
  · exact ⟨x, (List.getElem?_set_ne (Ne.symm same)).trans there, .refl x⟩

/-- What a thread does to the connections. -/
theorem sessions_of_turn (turn : Turn floatRepr m d thread m') :
    m'.sessions = m.sessions ∨ ∃ c session session', m.sessions[c]? = some session ∧
      m'.sessions = m.sessions.set c session' ∧ session.Keeps session' := by
  cases turn with
  | starts _ found assigned =>
    rw [startTask_accepted found assigned]
    exact .inl rfl
  | @sends task locals depth pc _ _ =>
    cases there : m.sessions[locals.conn]? with
    | none =>
      refine .inl ?_
      unfold setThread write setSession
      rw [List.modify_eq_set_getElem?, there]
      rfl
    | some session =>
      exact .inr ⟨locals.conn, session, _, there, sessions_setSession there _, session.keeps_hears _⟩
  | @receives session locals depth document rest pc there _ =>
    exact .inr ⟨locals.conn, session, _, there, sessions_setSession there _, rfl, rfl, List.Subset.refl _,
      fun _ same => same⟩
  | @mixed session locals outcome pc there _ =>
    exact .inr ⟨locals.conn, session, _, there, sessions_setSession there _, rfl, rfl, List.Subset.refl _,
      fun _ same => same⟩
  | _ => exact .inl rfl

theorem threads_of_submitAndDispatch (m : ThreadedMaster) (t : TaskId) (taskType : String)
    (payload : List (Key × Val)) : ∃ batch : List TaskId,
      (m.submitAndDispatchTask t taskType payload).threads = m.threads ++ batch.map .start ∧
      (m.submitAndDispatchTask t taskType payload).sessions = m.sessions ∧
      (m.submitAndDispatchTask t taskType payload).connections = m.connections := by
  unfold submitAndDispatchTask
  split
  · exact ⟨[], (List.append_nil _).symm, rfl, rfl⟩
  · split
    · exact ⟨[_], rfl, rfl, rfl⟩
    · exact ⟨[], (List.append_nil _).symm, rfl, rfl⟩

theorem threads_of_round {i : Nat} {drain : ThreadedDrain} (taken : m.drainRound i drain = some m') :
    ∃ batch : List TaskId, m'.threads = m.threads ++ batch.map .start ∧ m'.sessions = m.sessions ∧
      m'.connections = m.connections := by
  unfold drainRound at taken
  split at taken
  · simp only at taken
    split at taken <;> cases taken
    · exact ⟨[], (List.append_nil _).symm, rfl, rfl⟩
    · exact ⟨_, rfl, rfl, rfl⟩
  · cases taken

theorem sessions_kept (fenced : m.Fenced) (taken : m.step floatRepr a = some m') (k : ConnId) (x : Session)
    (there : m.sessions[k]? = some x) : ∃ x', m'.sessions[k]? = some x' ∧ x.Keeps x' := by
  have unchanged (same : m'.sessions = m.sessions) : ∃ x', m'.sessions[k]? = some x' ∧ x.Keeps x' :=
    ⟨x, same ▸ there, .refl x⟩
  cases occurs_of_step fenced taken with
  | connects _ _ _ _ =>
    exact ⟨x, (List.getElem?_append_left (List.getElem?_eq_some_iff.mp there).1).trans there, .refl x⟩
  | @acts _ _ session _ blocks here does =>
    exact sessions_kept_of_set here (sessions_setSession here _)
      (session.keeps_acted (Peer.blocking_of_act blocks does)) k x there
  | loses _ here =>
    exact sessions_kept_of_set here (sessions_setSession here _)
      ⟨rfl, rfl, List.Subset.refl _, fun _ same => same⟩ k x there
  | serves here served =>
    obtain ⟨phase, _, session', sessions, served⟩ := served_of_serve here served
    exact sessions_kept_of_set here sessions (keeps_of_served phase served) k x there
  | @breaks _ session here phase =>
    refine sessions_kept_of_set here (sessions_setSession here _) (session.keeps_phase fun w => ?_) k x there
    rw [phase]
    exact SessionPhase.noConfusion
  | @enlists _ session _ here phase =>
    refine sessions_kept_of_set here (sessions_setSession here _) (session.keeps_phase fun v => ?_) k x there
    rw [phase]
    exact SessionPhase.noConfusion
  | handles _ | rejects _ _ | ticks _ | submits _ _ _ | calls | joins _ _ => exact unchanged rfl
  | dispatches t taskType payload =>
    obtain ⟨_, _, sessions, _⟩ := threads_of_submitAndDispatch m t taskType payload
    exact unchanged sessions
  | rounds _ turned =>
    obtain ⟨_, _, sessions, _⟩ := threads_of_round turned
    exact unchanged sessions
  | turns here turn =>
    rcases sessions_of_turn turn with same | ⟨c, session, session', at_c, sessions, keeps⟩
    · exact unchanged same
    · exact sessions_kept_of_set at_c sessions keeps k x there

theorem since_of_step (fenced : m.Fenced) (taken : m.step floatRepr a = some m') : m.Since m' :=
  ⟨sessions_kept fenced taken, fun _ _ found => work_of_changes (changes_of_step fenced taken) found⟩

/-! ### One conversation on each connection -/

/-- Thread `d` waits for an answer on connection `c`. -/
structure Awaits (m : ThreadedMaster) (c : ConnId) (d : ThreadId) (thread : DispatchThread) (locals : Capture) :
    Prop where
  here : m.threads[d]? = some thread
  pc : thread.pc = .receiving locals
  conn : locals.conn = c

/-- The TASK that a thread has sent is under way, or nothing is. -/
def Converses (floatRepr : BitVec 64 → String) (m : ThreadedMaster) (c : ConnId) (session : Session) : Prop :=
  (∃ d thread locals task, m.Awaits c d thread locals ∧ m.tasks.get? thread.task = some task ∧
    session.Asked floatRepr (.ofDispatch floatRepr thread.task task locals.attempt)) ∨
  (session.Quiet ∧ ∀ d thread locals, ¬ m.Awaits c d thread locals)

def Conducts (floatRepr : BitVec 64 → String) (m : ThreadedMaster) (c : ConnId) (session : Session) : Prop :=
  session.garbled = false ∧
  match session.phase with
  | .registering => session.Greets
  | .acknowledged w => session.peer.workerId = w ∧ session.Quiet
  | .enlisted w => session.peer.workerId = w ∧ m.Converses floatRepr c session
  | .raised => True

structure Conversing (floatRepr : BitVec 64 → String) (m : ThreadedMaster) : Prop where
  conducts : ∀ (c : ConnId) (session : Session), m.sessions[c]? = some session → m.Conducts floatRepr c session
  enrolled : ∀ w c, m.connections.get? w = some c → ∃ session, m.sessions[c]? = some session ∧
    session.phase = .enlisted w

theorem ofDispatch_congr {task' : Task} (typed : task'.taskType = task.taskType)
    (filled : task'.payload = task.payload) (t : TaskId) (attempt : Nat) :
    TaskMessage.ofDispatch floatRepr t task' attempt = .ofDispatch floatRepr t task attempt := by
  unfold TaskMessage.ofDispatch
  rw [typed, filled]

theorem Converses.congr (converses : m.Converses floatRepr c session) (since : m.Since m')
    (awaits : ∀ d thread locals, m'.Awaits c d thread locals ↔ m.Awaits c d thread locals) :
    m'.Converses floatRepr c session := by
  rcases converses with ⟨d, thread, locals, task, waits, found, asked⟩ | ⟨quiet, nobody⟩
  · obtain ⟨task', found', typed, filled⟩ := since.work _ task found
    refine .inl ⟨d, thread, locals, task', (awaits d thread locals).mpr waits, found', ?_⟩
    rwa [ofDispatch_congr typed filled]
  · exact .inr ⟨quiet, fun d thread locals waits => nobody d thread locals ((awaits d thread locals).mp waits)⟩

/-- A connection on which something happens that keeps its conversation going. -/
theorem Conducts.moves (conducts : m.Conducts floatRepr c session) (since : m.Since m')
    (awaits : ∀ d thread locals, m'.Awaits c d thread locals ↔ m.Awaits c d thread locals)
    (garbled : session'.garbled = session.garbled) (phase : session'.phase = session.phase)
    (workerId : session'.peer.workerId = session.peer.workerId) (greets : session.Greets → session'.Greets)
    (quiet : session.Quiet → session'.Quiet)
    (asked : ∀ task, session.Asked floatRepr task → session'.Asked floatRepr task) :
    m'.Conducts floatRepr c session' := by
  obtain ⟨clean, state⟩ := conducts
  refine ⟨garbled.trans clean, ?_⟩
  rw [phase]
  cases h : session.phase with
  | registering =>
    rw [h] at state
    exact greets state
  | acknowledged w =>
    rw [h] at state
    exact ⟨workerId.trans state.1, quiet state.2⟩
  | enlisted w =>
    rw [h] at state
    have converses : m'.Converses floatRepr c session := Converses.congr state.2 since awaits
    refine ⟨workerId.trans state.1, converses.imp ?_ (And.imp_left quiet)⟩
    rintro ⟨d, thread, locals, task, waits, found, waiting⟩
    exact ⟨d, thread, locals, task, waits, found, asked _ waiting⟩
  | raised => trivial

theorem Conducts.congr (conducts : m.Conducts floatRepr c session) (since : m.Since m')
    (awaits : ∀ d thread locals, m'.Awaits c d thread locals ↔ m.Awaits c d thread locals) :
    m'.Conducts floatRepr c session :=
  conducts.moves since awaits rfl rfl rfl id id fun _ => id

theorem awaits_congr (threads : m'.threads = m.threads) (c : ConnId) (d : ThreadId) (thread : DispatchThread)
    (locals : Capture) : m'.Awaits c d thread locals ↔ m.Awaits c d thread locals :=
  ⟨fun waits => ⟨threads ▸ waits.here, waits.pc, waits.conn⟩,
    fun waits => ⟨threads ▸ waits.here, waits.pc, waits.conn⟩⟩

/-- A step that leaves most connections alone. -/
theorem Conversing.later (conversing : m.Conversing floatRepr) (since : m.Since m')
    (connections : m'.connections = m.connections)
    (conducts : ∀ (k : ConnId) (x : Session), m'.sessions[k]? = some x →
      (m.sessions[k]? = some x ∧ ∀ d thread locals, m'.Awaits k d thread locals ↔ m.Awaits k d thread locals) ∨
        m'.Conducts floatRepr k x) : m'.Conversing floatRepr := by
  refine ⟨fun k x there => ?_, fun w c entry => ?_⟩
  · rcases conducts k x there with ⟨old, awaits⟩ | new
    · exact (conversing.conducts k x old).congr since awaits
    · exact new
  · rw [connections] at entry
    obtain ⟨session, there, enlisted⟩ := conversing.enrolled w c entry
    obtain ⟨session', there', keeps⟩ := since.sessions c session there
    exact ⟨session', there', keeps.enlisted w enlisted⟩

/-- A step that leaves the connections and what threads await alone. -/
theorem Conversing.frame (conversing : m.Conversing floatRepr) (since : m.Since m')
    (connections : m'.connections = m.connections) (sessions : m'.sessions = m.sessions)
    (awaits : ∀ c d thread locals, m'.Awaits c d thread locals ↔ m.Awaits c d thread locals) :
    m'.Conversing floatRepr :=
  conversing.later since connections fun k _ there => .inl ⟨sessions ▸ there, awaits k⟩

/-- A step at one connection. -/
theorem Conversing.touch (conversing : m.Conversing floatRepr) (since : m.Since m')
    (connections : m'.connections = m.connections) (here : m.sessions[c]? = some session)
    (sessions : m'.sessions = m.sessions.set c session')
    (awaits : ∀ k, k ≠ c → ∀ d thread locals, m'.Awaits k d thread locals ↔ m.Awaits k d thread locals)
    (conducts : m'.Conducts floatRepr c session') : m'.Conversing floatRepr := by
  refine conversing.later since connections fun k x there => ?_
  rw [sessions] at there
  rcases getElem?_set_cases here there with ⟨rfl, rfl⟩ | ⟨apart, old⟩
  · exact .inr conducts
  · exact .inl ⟨old, awaits k apart⟩

/-! ### Threads and their connections -/

/-- What a thread that is past `start_task` knows of its connection. -/
theorem working_on (orderly : m.Orderly) (here : m.threads[d]? = some thread)
    (works : thread.pc.working? = some locals) :
    ∃ task w, m.tasks.get? thread.task = some task ∧ thread.Standing m.connections task ∧
      m.connections.get? w = some locals.conn ∧ locals.workerId = some w ∧ locals.attempt = task.attempt := by
  have unfinished : thread.finished = false := by
    cases h : thread.pc <;> simp_all [ThreadPc.working?, DispatchThread.finished]
  obtain ⟨task, found, standing⟩ := orderly.leased.standing d thread here unfinished
  obtain ⟨w, read⟩ := standing.read (ThreadPc.begins_of_working works)
  exact ⟨task, w, found, standing, read.captured works⟩

/-- No two threads use one connection. -/
theorem alone_on_connection (orderly : m.Orderly) (conversing : m.Conversing floatRepr) {e : ThreadId}
    {other : DispatchThread} {own : Capture} (here : m.threads[d]? = some thread) (there : m.threads[e]? = some other)
    (works : thread.pc.working? = some own) (works' : other.pc.working? = some locals)
    (same : own.conn = locals.conn) : d = e := by
  obtain ⟨_, w, _, _, entry, named, _⟩ := working_on orderly here works
  obtain ⟨_, v, _, _, entry', named', _⟩ := working_on orderly there works'
  obtain ⟨session, at_c, enlisted⟩ := conversing.enrolled w _ entry
  obtain ⟨session', at_c', enlisted'⟩ := conversing.enrolled v _ entry'
  rw [same, at_c'] at at_c
  obtain rfl := Option.some.inj at_c
  obtain rfl : w = v := SessionPhase.enlisted.inj (enlisted.symm.trans enlisted')
  refine orderly.leased.apart d e thread other w here there ?_ ?_
  · rw [thread.lessee_working works, named]
  · rw [other.lessee_working works', named']

/-- The connection of a thread is that of a worker on the list. -/
theorem session_of_working (orderly : m.Orderly) (conversing : m.Conversing floatRepr)
    (here : m.threads[d]? = some thread) (works : thread.pc.working? = some locals) :
    ∃ w session, locals.workerId = some w ∧ m.sessions[locals.conn]? = some session ∧ session.phase = .enlisted w ∧
      session.peer.workerId = w ∧ session.garbled = false ∧ m.Converses floatRepr locals.conn session := by
  obtain ⟨_, w, _, _, entry, named, _⟩ := working_on orderly here works
  obtain ⟨session, there, enlisted⟩ := conversing.enrolled w _ entry
  obtain ⟨clean, state⟩ := conversing.conducts _ session there
  rw [enlisted] at state
  exact ⟨w, session, named, there, enlisted, state.1, clean, state.2⟩

/-! ### The greeting of a worker -/

theorem awaits_unfinished (waits : m.Awaits c d thread locals) : thread.finished = false := by
  rw [DispatchThread.finished, waits.pc]

theorem nobody_awaits (idle : m.dispatching = false) (c : ConnId) (d : ThreadId) (thread : DispatchThread)
    (locals : Capture) : ¬ m.Awaits c d thread locals := by
  intro waits
  have finished := (idle_of_not_dispatching idle).2 thread (List.mem_of_getElem? waits.here)
  exact Bool.false_ne_true ((awaits_unfinished waits).symm.trans finished)

/-- A turn of `accept_and_register` keeps the greeting going or ends it. -/
theorem conducts_of_served (conducts : m.Conducts floatRepr c session) (phase : session.phase = .registering)
    (served : Served floatRepr m session now session') (n : ThreadedMaster) :
    n.Conducts floatRepr c session' := by
  obtain ⟨clean, greets⟩ := conducts
  rw [phase] at greets
  have kept {reply : Json} {rest : List Json} :
      ((session.popped rest).hears [reply]).garbled = false ∧
        ((session.popped rest).hears [reply]).phase = .registering ∧
        ((session.popped rest).hears [reply]).peer.workerId = session.peer.workerId := by
    obtain ⟨garbled, same, workerId⟩ := (session.popped rest).hears_frame [reply]
    exact ⟨garbled.trans clean, same.trans phase, workerId⟩
  cases served with
  | raises rest => exact ⟨clean, trivial⟩
  | invalid documents said invalid =>
    obtain ⟨_, _, _, decoded, _⟩ := Session.Greets.said greets said
    cases invalid.symm.trans decoded
  | answers said decoded handled =>
    refine ⟨kept.1, ?_⟩
    rw [kept.2.1]
    exact (Session.Greets.answered greets said decoded).1
  | @acknowledges _ _ _ _ _ w said decoded handled register worker =>
    -- a worker registers itself
    have same : session.peer.workerId = w := by
      obtain ⟨_, uuid, request', decoded', named⟩ := Session.Greets.said greets said
      cases decoded.symm.trans decoded'
      rcases named with rfl | rfl
      · cases register
      · exact Val.str.inj worker
    exact ⟨kept.1, kept.2.2.trans same, (Session.Greets.answered greets said decoded).2 register⟩

/-! ### Turns of a thread -/

/-- Only thread `d` may begin or stop to wait on a connection. -/
theorem awaits_of_set {thread' : DispatchThread} (here : m.threads[d]? = some thread)
    (threads : m'.threads = m.threads.set d thread')
    (before : ∀ locals, thread.pc = .receiving locals → locals.conn ≠ c)
    (after : ∀ locals, thread'.pc = .receiving locals → locals.conn ≠ c) (e : ThreadId) (other : DispatchThread)
    (locals : Capture) : m'.Awaits c e other locals ↔ m.Awaits c e other locals := by
  constructor
  · intro waits
    have there := waits.here
    rw [threads] at there
    rcases getElem?_set_cases here there with ⟨rfl, rfl⟩ | ⟨_, old⟩
    · exact absurd waits.conn (after locals waits.pc)
    · exact ⟨old, waits.pc, waits.conn⟩
  · intro waits
    have apart : e ≠ d := by
      rintro rfl
      obtain rfl := Option.some.inj (here.symm.trans waits.here)
      exact before locals waits.pc waits.conn
    refine ⟨?_, waits.pc, waits.conn⟩
    rw [threads, List.getElem?_set_ne apart.symm]
    exact waits.here

/-- A thread takes a step that does not concern its connection. -/
theorem Conversing.aside {pc : ThreadPc} (conversing : m.Conversing floatRepr) (here : m.threads[d]? = some thread)
    (n : ThreadedMaster) (since : m.Since (n.setThread d pc)) (threads : n.threads = m.threads)
    (connections : n.connections = m.connections) (sessions : n.sessions = m.sessions)
    (before : ∀ locals, thread.pc ≠ .receiving locals) (after : ∀ locals, pc ≠ .receiving locals) :
    (n.setThread d pc).Conversing floatRepr := by
  have set : (n.setThread d pc).threads = m.threads.set d { thread with pc } :=
    (congrArg (List.modify · d _) threads).trans (threads_modify here _)
  exact conversing.frame since connections sessions fun c => awaits_of_set here set
    (fun locals receiving => absurd receiving (before locals))
    (fun locals receiving => absurd receiving (after locals))

/-- Nobody else waits on the connection of a thread. -/
theorem alone_awaits (orderly : m.Orderly) (conversing : m.Conversing floatRepr) {e : ThreadId}
    {other : DispatchThread} {own : Capture} (here : m.threads[d]? = some thread)
    (works : thread.pc.working? = some own) (waits : m.Awaits own.conn e other locals) : d = e :=
  alone_on_connection orderly conversing here waits.here works (by rw [waits.pc]; rfl) waits.conn.symm

theorem Conversing.sends {depth : Nat} (conversing : m.Conversing floatRepr) (orderly : m.Orderly)
    (here : m.threads[d]? = some thread) (pc : thread.pc = .sending locals)
    (found : m.tasks.get? thread.task = some task)
    (encoded : encodeMessage depth (dispatchRequest thread.task task locals.attempt) =
      .ok (dispatchRequest thread.task task locals.attempt))
    (since : m.Since ((m.write floatRepr locals.conn (dispatchRequest thread.task task locals.attempt)).setThread d
      (.receiving locals))) :
    ((m.write floatRepr locals.conn (dispatchRequest thread.task task locals.attempt)).setThread d
      (.receiving locals)).Conversing floatRepr := by
  have works : thread.pc.working? = some locals := by rw [pc]; rfl
  obtain ⟨w, session, _, there, enlisted, same, clean, converses⟩ := session_of_working orderly conversing here works
  have quiet : session.Quiet := by
    rcases converses with ⟨e, other, locals', _, waits, _⟩ | ⟨quiet, _⟩
    · obtain rfl := alone_awaits orderly conversing here works waits
      obtain rfl := Option.some.inj (here.symm.trans waits.here)
      cases pc.symm.trans waits.pc
    · exact quiet
  have sessions := sessions_setSession there fun session =>
    session.hears [(dispatchRequest thread.task task locals.attempt).document floatRepr]
  have threads := threads_modify here fun thread => { thread with pc := .receiving locals }
  refine conversing.touch since rfl there sessions (fun k apart => awaits_of_set here threads ?_ ?_) ?_
  · intro other receiving
    cases pc.symm.trans receiving
  · intro other receiving
    cases receiving
    exact apart.symm
  · have kept := session.hears_frame [(dispatchRequest thread.task task locals.attempt).document floatRepr]
    have waits : Awaits ((m.write floatRepr locals.conn (dispatchRequest thread.task task locals.attempt)).setThread d
        (.receiving locals)) locals.conn d { thread with pc := .receiving locals } locals := by
      refine ⟨?_, rfl, rfl⟩
      exact (congrArg (·[d]?) threads).trans (List.getElem?_set_self (List.getElem?_eq_some_iff.mp here).1)
    refine ⟨kept.1.trans clean, ?_⟩
    rw [kept.2.1, enlisted]
    exact ⟨kept.2.2.trans same, .inl ⟨d, _, locals, task, waits, found,
      quiet.hears (taskOf_dispatchRequest encoded)⟩⟩

/-- What a thread that waits for its answer has asked. -/
theorem asked_of_receiving (conversing : m.Conversing floatRepr) (orderly : m.Orderly)
    (here : m.threads[d]? = some thread) (pc : thread.pc = .receiving locals)
    (there : m.sessions[locals.conn]? = some session) :
    ∃ w task, locals.workerId = some w ∧ session.phase = .enlisted w ∧ session.peer.workerId = w ∧
      session.garbled = false ∧ m.tasks.get? thread.task = some task ∧
      session.Asked floatRepr (.ofDispatch floatRepr thread.task task locals.attempt) := by
  have works : thread.pc.working? = some locals := by rw [pc]; rfl
  obtain ⟨w, other, named, there', enlisted, same, clean, converses⟩ :=
    session_of_working orderly conversing here works
  obtain rfl := Option.some.inj (there.symm.trans there')
  rcases converses with ⟨e, other, locals', task, waits, found, asked⟩ | ⟨_, nobody⟩
  · obtain rfl := alone_awaits orderly conversing here works waits
    obtain rfl := Option.some.inj (here.symm.trans waits.here)
    cases pc.symm.trans waits.pc
    exact ⟨w, task, named, enlisted, same, clean, found, asked⟩
  · exact absurd ⟨here, pc, rfl⟩ (nobody d thread locals)

/-- The answer has been read, or will not come: the connection is quiet again. -/
theorem Conversing.heard {pc' : ThreadPc} (conversing : m.Conversing floatRepr) (orderly : m.Orderly)
    (here : m.threads[d]? = some thread) (pc : thread.pc = .receiving locals)
    (there : m.sessions[locals.conn]? = some session) (n : ThreadedMaster) (since : m.Since (n.setThread d pc'))
    (threads : n.threads = m.threads) (connections : n.connections = m.connections)
    (sessions : n.sessions = m.sessions.set locals.conn session') (after : ∀ locals, pc' ≠ .receiving locals)
    (garbled : session'.garbled = session.garbled) (phase : session'.phase = session.phase)
    (workerId : session'.peer.workerId = session.peer.workerId) (quiet : session'.Quiet) :
    (n.setThread d pc').Conversing floatRepr := by
  have works : thread.pc.working? = some locals := by rw [pc]; rfl
  obtain ⟨w, task, _, enlisted, same, clean, _⟩ := asked_of_receiving conversing orderly here pc there
  have set : (n.setThread d pc').threads = m.threads.set d { thread with pc := pc' } :=
    (congrArg (List.modify · d _) threads).trans (threads_modify here _)
  refine conversing.touch since connections there sessions (fun k apart => awaits_of_set here set ?_ ?_) ?_
  · intro other receiving
    cases pc.symm.trans receiving
    exact apart.symm
  · exact fun other receiving => absurd receiving (after other)
  · refine ⟨garbled.trans clean, ?_⟩
    rw [phase, enlisted]
    refine ⟨workerId.trans same, .inr ⟨quiet, fun e other locals' waits => ?_⟩⟩
    have found := waits.here
    rw [set] at found
    rcases getElem?_set_cases here found with ⟨rfl, rfl⟩ | ⟨apart, old⟩
    · exact after _ waits.pc
    · exact apart (alone_awaits orderly conversing here works ⟨old, waits.pc, waits.conn⟩).symm

theorem received_ne_receiving (locals other : Capture) (depth : Nat) (document : Json) :
    ThreadPc.received locals depth document ≠ .receiving other := by
  unfold ThreadPc.received
  split
  · exact ThreadPc.noConfusion
  · split <;> exact ThreadPc.noConfusion

theorem not_shared (conversing : m.Conversing floatRepr) (orderly : m.Orderly) (here : m.threads[d]? = some thread)
    (pc : thread.pc = .receiving locals) : m.shared d locals.conn = false := by
  have works : thread.pc.working? = some locals := by rw [pc]; rfl
  by_contra shared
  simp only [ThreadedMaster.shared, Bool.not_eq_false, List.any_eq_true, List.mem_range, Bool.and_eq_true,
    decide_eq_true_eq] at shared
  obtain ⟨e, _, apart, used⟩ := shared
  obtain ⟨other, there, conn⟩ := Option.bind_eq_some_iff.mp used
  obtain ⟨locals', works', same⟩ : ∃ locals', other.pc.working? = some locals' ∧ locals'.conn = locals.conn := by
    unfold DispatchThread.conn? at conn
    split at conn
    case h_3 => cases conn
    all_goals exact ⟨_, by simp [ThreadPc.working?, *], Option.some.inj conn⟩
  exact apart (alone_on_connection orderly conversing here there works works' same.symm).symm

/-- No socket is shared. -/
theorem not_mixed (conversing : m.Conversing floatRepr) (orderly : m.Orderly) (here : m.threads[d]? = some thread)
    (pc : thread.pc = .receiving locals) (there : m.sessions[locals.conn]? = some session) :
    (session.garbled || m.shared d locals.conn) = false := by
  obtain ⟨_, _, _, _, _, clean, _⟩ := asked_of_receiving conversing orderly here pc there
  rw [clean, not_shared conversing orderly here pc]
  rfl

/-- A thread keeps the conversations going. -/
theorem Conversing.turn (conversing : m.Conversing floatRepr) (orderly : m.Orderly)
    (here : m.threads[d]? = some thread) (turn : Turn floatRepr m d thread m') (since : m.Since m') :
    m'.Conversing floatRepr := by
  cases turn with
  | looks pc _ _ _ | unknown pc _ _ | owns pc _ | captures pc _ | refused pc _ _ | unsent pc _ _
  | overflows pc _ _ | cut pc _ _ | ignored pc _ | malformed pc _ _ | uncompleted pc _ _ _ | forgotten pc _
  | unowned pc _ =>
    refine conversing.aside here m since rfl rfl rfl (fun _ receiving => ?_) fun _ => ThreadPc.noConfusion
    cases pc.symm.trans receiving
  | finishes pc _ _ _ _ _ | abandons pc _ _ _ _ _ _ | condemns pc _ _ _ _ =>
    refine conversing.aside here { m with scheduler := _ } since rfl rfl rfl (fun _ receiving => ?_)
      fun _ => ThreadPc.noConfusion
    cases pc.symm.trans receiving
  | @starts task locals pc found assigned =>
    rw [startTask_accepted found assigned] at since ⊢
    refine conversing.frame since rfl rfl fun c => awaits_of_set here (threads_modify here _) ?_ ?_
    · intro other receiving
      cases pc.symm.trans receiving
    · exact fun other receiving => ThreadPc.noConfusion receiving
  | sends pc found encoded => exact conversing.sends orderly here pc found encoded since
  | @receives session locals depth document rest pc there said =>
    obtain ⟨_, _, _, _, _, _, _, asked⟩ := asked_of_receiving conversing orderly here pc there
    exact conversing.heard orderly here pc there (m.popped ..) since rfl rfl (sessions_setSession there _)
      (fun other => received_ne_receiving locals other depth document) rfl rfl rfl
      (asked.popped (dispatchId_ne _) said).1
  | @closed session locals reason pc there lost silent =>
    have same : m.sessions = m.sessions.set locals.conn session := by
      obtain ⟨bound, rfl⟩ := List.getElem?_eq_some_iff.mp there
      exact (List.set_getElem_self bound).symm
    exact conversing.heard orderly here pc there m since rfl rfl same (fun _ => ThreadPc.noConfusion) rfl rfl rfl
      ⟨silent, .inl (.inl lost)⟩
  | mixed pc there mixed =>
    cases (not_mixed conversing orderly here pc there).symm.trans mixed

/-! ### Every step -/

/-- New threads wait for nothing yet. -/
theorem awaits_spawn {batch : List TaskId} (threads : m'.threads = m.threads ++ batch.map .start) (c : ConnId)
    (e : ThreadId) (other : DispatchThread) (locals : Capture) :
    m'.Awaits c e other locals ↔ m.Awaits c e other locals := by
  constructor
  · intro waits
    refine ⟨?_, waits.pc, waits.conn⟩
    have there := waits.here
    rw [threads, List.getElem?_append] at there
    split at there
    · exact there
    · obtain ⟨t, _, rfl⟩ := List.mem_map.mp (List.mem_of_getElem? there)
      cases waits.pc
  · intro waits
    refine ⟨?_, waits.pc, waits.conn⟩
    rw [threads, List.getElem?_append_left (List.getElem?_eq_some_iff.mp waits.here).1]
    exact waits.here

/-- A worker registers its connection while nothing is dispatched. -/
theorem Conversing.enlists {w : WorkerId} (conversing : m.Conversing floatRepr) (idle : m.dispatching = false)
    (here : m.sessions[c]? = some session) (phase : session.phase = .acknowledged w)
    (since : m.Since { m.setPhase c (.enlisted w) with connections := m.connections.insert w c }) :
    Conversing floatRepr { m.setPhase c (.enlisted w) with connections := m.connections.insert w c } := by
  have sessions : (m.setPhase c (.enlisted w)).sessions =
      m.sessions.set c { session with phase := .enlisted w } := sessions_setSession here _
  obtain ⟨clean, state⟩ := conversing.conducts c session here
  rw [phase] at state
  refine ⟨fun k x there => ?_, fun v k entry => ?_⟩
  · rw [sessions] at there
    rcases getElem?_set_cases here there with ⟨rfl, rfl⟩ | ⟨_, old⟩
    · exact ⟨clean, state.1, .inr ⟨state.2, fun d thread locals waits =>
        nobody_awaits idle k d thread locals ⟨waits.here, waits.pc, waits.conn⟩⟩⟩
    · exact (conversing.conducts k x old).congr since fun _ _ _ => ⟨fun waits => ⟨waits.here, waits.pc, waits.conn⟩,
        fun waits => ⟨waits.here, waits.pc, waits.conn⟩⟩
  · rw [Dict.get?_insert] at entry
    split at entry
    · rename_i same
      cases entry
      subst same
      exact ⟨_, (congrArg (·[c]?) sessions).trans
        (List.getElem?_set_self (List.getElem?_eq_some_iff.mp here).1), rfl⟩
    · obtain ⟨x, there, enlisted⟩ := conversing.enrolled v k entry
      obtain ⟨x', there', keeps⟩ := since.sessions k x there
      exact ⟨x', there', keeps.enlisted v enlisted⟩

theorem Conversing.step (conversing : m.Conversing floatRepr) (orderly : m.Orderly) (fenced : m.Fenced)
    (good : mainStep m a) (taken : m.step floatRepr a = some m') : m'.Conversing floatRepr := by
  have since := since_of_step fenced taken
  have awaits (threads : m'.threads = m.threads) (k : ConnId) :
      ∀ d thread locals, m'.Awaits k d thread locals ↔ m.Awaits k d thread locals := awaits_congr threads k
  have untouched (threads : m'.threads = m.threads) (sessions : m'.sessions = m.sessions)
      (connections : m'.connections = m.connections) : m'.Conversing floatRepr :=
    conversing.frame since connections sessions (awaits threads)
  have grown : (∃ batch : List TaskId, m'.threads = m.threads ++ batch.map .start ∧ m'.sessions = m.sessions ∧
      m'.connections = m.connections) → m'.Conversing floatRepr := by
    rintro ⟨batch, threads, sessions, connections⟩
    exact conversing.frame since connections sessions (awaits_spawn threads)
  cases occurs_of_step fenced taken with
  | connects _ _ _ _ =>
    refine conversing.later since rfl fun k x there => ?_
    rcases Futures.getElem?_concat_cases there with old | ⟨_, rfl⟩
    · exact .inl ⟨old, awaits rfl k⟩
    · exact .inr ⟨rfl, .connected rfl rfl rfl⟩
  | @acts _ _ session _ blocks here does =>
    have blocking := Peer.blocking_of_act blocks does
    exact conversing.touch since rfl here (sessions_setSession here _) (fun k _ => awaits rfl k)
      ((conversing.conducts _ session here).moves since (awaits rfl _) rfl rfl
        (session.identity_acted blocking).1 (fun greets => greets.acted blocking)
        (fun quiet => quiet.acted blocking) fun _ asked => asked.acted blocking)
  | @loses _ session arrived here =>
    exact conversing.touch since rfl here (sessions_setSession here _) (fun k _ => awaits rfl k)
      ((conversing.conducts _ session here).moves since (awaits rfl _) rfl rfl rfl
        (fun greets => greets.cut arrived) (fun quiet => quiet.cut arrived) fun _ asked => asked.cut arrived)
  | @serves _ session _ _ _ here served =>
    obtain ⟨threads, _⟩ := serve_frame served
    obtain ⟨phase, connections, session', sessions, served⟩ := served_of_serve here served
    exact conversing.touch since connections here sessions (fun k _ => awaits threads k)
      (conducts_of_served (conversing.conducts _ session here) phase served m')
  | @breaks _ session here _ =>
    exact conversing.touch since rfl here (sessions_setSession here _) (fun k _ => awaits rfl k)
      ⟨(conversing.conducts _ session here).1, trivial⟩
  | enlists here phase => exact conversing.enlists (Bool.not_eq_true' _ ▸ good) here phase since
  | handles _ | rejects _ _ | ticks _ | submits _ _ _ | calls | joins _ _ => exact untouched rfl rfl rfl
  | dispatches t taskType payload => exact grown (threads_of_submitAndDispatch m t taskType payload)
  | rounds _ turned => exact grown (threads_of_round turned)
  | turns here turn => exact conversing.turn orderly here turn since

theorem conversing_of_run (run : Steps (ThreadedMaster.step floatRepr) mainStep initial m) :
    m.Conversing floatRepr :=
  run.invariant_with (I := fun m => m.Conversing floatRepr)
    (fun _ before => And.intro (fenced_of_run before) (orderly_of_run before))
    ⟨fun c session there => by simp [initial] at there, fun w c entry => by simp [initial] at entry⟩
    fun _ _ _ known conversing good taken => conversing.step known.2 known.1 good taken

end ThreadedMaster
end DistributedCompute
