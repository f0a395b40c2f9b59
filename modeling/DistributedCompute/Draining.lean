import DistributedCompute.Replies
import DistributedCompute.Service
import DistributedCompute.Condemnation

/-! How a worker leaves. A SHUTDOWN makes it DRAINING; its connection is closed
once nothing is pending on it, and the `finally` block of the handler then
declares the worker STOPPED. What is pending is judged by the futures of the link:
a task that is assigned but not yet sent has none, and the future of a task that
has been answered stays until its call resumes. -/
namespace DistributedCompute
open Py Relation Transition

def Action.clears : Action → Bool
  | .stopClears => true
  | _ => false

/-- The handler has granted a REGISTER and is sending the acknowledgement. -/
def HandlerPc.acksRegister : HandlerPc → Bool
  | .replying message response => message.type = .register && response.type = .registerAck
  | _ => false

theorem registering_of_acksRegister {pc : HandlerPc} (quiet : pc.acksRegister = false) : pc.registering = none := by
  cases pc <;> simp_all [HandlerPc.acksRegister, HandlerPc.registering]

/-- The handler has processed a SHUTDOWN and is sending the acknowledgement. -/
def HandlerPc.answersShutdown : HandlerPc → Bool
  | .replying message response => message.type = .shutdown && response.type = .shutdownAck
  | _ => false

namespace Master

/-- A task is ASSIGNED to or RUNNING on `w`. -/
def hasInFlight (m : Master) (w : WorkerId) : Bool :=
  m.tasks.entries.any (fun e => e.2.assignedWorkerId = some w && e.2.status.inFlight)

theorem hasInFlight_eq_false {m : Master} {w : WorkerId} :
    m.hasInFlight w = false ↔ ∀ t, ¬ m.scheduler.Holds t w := by
  constructor
  · rintro idle t ⟨task, found, owner, held⟩
    have member : (t, task) ∈ m.tasks.entries := Dict.mem_entries.mpr found
    have none := List.any_eq_false.mp idle (t, task) member
    simp [owner, held] at none
  · intro free
    refine List.any_eq_false.mpr ?_
    rintro ⟨t, task⟩ member held
    simp only [Bool.and_eq_true, decide_eq_true_eq] at held
    exact free t ⟨task, Dict.mem_entries.mp member, held.1, held.2⟩

/-- A REGISTER is granted on link `l`. -/
def registersOn (m : Master) (l : LinkId) : Action → Bool
  | .receive k message now => k = l && (grantedRegistration m.workers message now).isSome
  | _ => false

/-- A REGISTER for `w` is granted. -/
def registers (m : Master) (w : WorkerId) : Action → Bool
  | .receive _ message now => (grantedRegistration m.workers message now).any (fun granted => granted.1 = w)
  | _ => false

/-! ### The end of a handler -/

theorem ending_eq_some {m : Master} {a : Action} {l : LinkId} {link : Link} (ends : m.ending a = some (l, link)) :
    a.link? = some l ∧ m.links[l]? = some link ∧ m.handlerTurn l link a = some .ends := by
  obtain ⟨k, named, ends⟩ := Option.bind_eq_some_iff.mp ends
  obtain ⟨other, there, ends⟩ := Option.bind_eq_some_iff.mp ends
  split at ends
  · rename_i turn
    cases ends
    exact ⟨named, there, turn⟩
  · cases ends

theorem step_of_ending {m m' : Master} {a : Action} {l : LinkId} {link : Link} (ends : m.ending a = some (l, link))
    (taken : m.step a = some m') : m' = m.cleanup l link := by
  obtain ⟨named, there, turn⟩ := ending_eq_some ends
  cases a <;> cases named <;> simpa [step, there, turn, takeTurn, eq_comm] using taken

/-! ### While the handler serves the leaving worker -/

/-- The handler of link `l` serves the DRAINING worker `w`, and no other handler
is about to. -/
structure Leaving (m : Master) (l : LinkId) (w : WorkerId) : Prop where
  draining : m.workers.statusOf w = some .draining
  seated : m.connections.get? w = some l
  serving : ∃ link, m.links[l]? = some link ∧ link.pc.ended = false ∧ link.workerId = some w ∧
    link.pc.acksRegister = false
  alone : ∀ (k : LinkId) other, m.links[k]? = some other → other.pc.registering ≠ some w

section Leaving
variable {m m' : Master} {a : Action} {l : LinkId} {w : WorkerId}

theorem leaving_of_shutdown {link : Link} (there : m.links[l]? = some link)
    (shutdown : link.pc.answersShutdown = true)
    (mine : link.workerId = some w) (seated : m.connections.get? w = some l)
    (draining : m.workers.statusOf w = some .draining) (alone : ∀ other ∈ m.links, other.pc.registering ≠ some w) :
    m.Leaving l w := by
  refine ⟨draining, seated, ⟨link, there, ?_, mine, ?_⟩,
    fun k other found => alone other (List.mem_of_getElem? found)⟩
  · cases pc : link.pc <;> simp_all [HandlerPc.answersShutdown, HandlerPc.ended]
  · cases pc : link.pc <;> simp_all [HandlerPc.answersShutdown, HandlerPc.acksRegister]

theorem Leaving.kept (leaving : m.Leaving l w) (fenced : m.Fenced) (taken : m.step a = some m')
    (open_ : ∀ link, m.ending a ≠ some (l, link)) (spared : ∀ caller, (w, caller) ∉ m.requeueCalls a)
    (tabled : a.clears = false) (mute : m.registersOn l a = false) : m'.Leaving l w where
  draining := by
    rcases step_draining fenced taken leaving.draining with still | ⟨_, link, retiring, _⟩ | ⟨_, caller, called⟩
    · exact still
    · obtain ⟨⟨k, ended⟩, ends, mine⟩ := Option.bind_eq_some_iff.mp retiring
      obtain ⟨v, named, current⟩ := Option.bind_eq_some_iff.mp mine
      split at current
      · rename_i seated
        cases current
        rw [leaving.seated] at seated
        cases seated
        exact absurd ends (open_ _)
      · cases current
    · exact absurd called (spared caller)
  seated := by
    have reseat := step_reseat taken w
    generalize m'.connections.get? w = seat at reseat
    cases reseat with
    | same => exact leaving.seated
    | @left k link ends _ seated =>
      rw [leaving.seated] at seated
      cases seated
      exact absurd ends (open_ link)
    | taken _ there claims => exact absurd claims (leaving.alone _ _ there)
    | cleared clears => subst clears; cases tabled
  serving := by
    obtain ⟨link, there, serving, mine, none⟩ := leaving.serving
    obtain ⟨link', there', relink⟩ := step_relink taken there
    refine ⟨link', there', ?_⟩
    cases relink with
    | ended ends => exact absurd ends (open_ link)
    | @replying message response now ws received reading handled =>
      refine ⟨rfl, mine, ?_⟩
      cases handleRequest_handled handled with
      | registered granted _ => simp [registersOn, received, granted] at mute
      | unchanged _ other => simp [HandlerPc.acksRegister, other]
      | beat _ _ _ other => simp [HandlerPc.acksRegister, other]
      | drained _ _ _ _ other => simp [HandlerPc.acksRegister, other]
    | installed _ _ claims _ => simp [registering_of_acksRegister none] at claims
    | @handler pc _ _ quiet same =>
      refine ⟨same.trans serving, mine, ?_⟩
      cases pc <;> first | rfl | cases quiet
    | same | lost | replaced | written | unsent | popped | closed => exact ⟨serving, mine, none⟩
  alone := by
    intro k other there claims
    rcases step_registering taken there claims with ⟨link, before, claimed⟩ | ⟨message, now, ws, _, granted⟩
    · exact leaving.alone k link before claimed
    · exact not_granted_of_draining leaving.draining granted

/-- The `finally` block of the handler that serves the worker, run when nothing is
pending and nothing in flight, declares it STOPPED. -/
theorem Leaving.ends {link : Link} (leaving : m.Leaving l w) (there : m.links[l]? = some link)
    (free : link.hasPending = false) : (m.cleanup l link).workers.statusOf w = some .stopped := by
  obtain ⟨link', there', _, mine, _⟩ := leaving.serving
  rw [there] at there'
  cases there'
  have draining := leaving.draining
  have stops : (m.cleanup l link).workers = m.workers.setStatus w .stopped := by
    simp only [cleanup, mine, leaving.seated, if_true, retire, draining, free, and_self]
    rfl
  rw [stops, WorkerManager.statusOf_setStatus, if_pos rfl, draining]
  rfl

/-- `w` is STOPPED and nothing is in flight on it. -/
def Departed (m : Master) (w : WorkerId) : Prop :=
  m.workers.statusOf w = some .stopped ∧ ∀ t, ¬ m.scheduler.Holds t w

theorem Departed.kept (departed : m.Departed w) (fenced : m.Fenced) (taken : m.step a = some m')
    (away : m.registers w a = false) : m'.Departed w := by
  obtain ⟨stopped, free⟩ := departed
  refine ⟨?_, ?_⟩
  · rcases step_stopped fenced taken free stopped with still | ⟨l, message, now, ws, rfl, granted⟩
    · exact still
    · simp [registers, granted] at away
  · rintro t ⟨task', found, owner, held⟩
    rcases step_assigned taken found owner held with ⟨task, before, mine, inFlight, _⟩ | ⟨idle, _⟩
    · exact free t ⟨task, before, mine, inFlight⟩
    · have idle := idle_of_assigning idle
      simp [stopped] at idle

/-- While `w` is DRAINING: the `finally` block of its connection runs only when
nothing is pending and nothing in flight; `w` is not condemned, by a missed
heartbeat or a send that fails; its seat in the table is not touched, and no other
worker registers on the connection. No REGISTER for `w` is granted. -/
def leavesCleanly (l : LinkId) (w : WorkerId) (m : Master) (a : Action) : Prop :=
  (m.workers.statusOf w = some .draining →
    (∀ ended ∈ m.ending a, ended.1 = l → ended.2.hasPending = false ∧ m.hasInFlight w = false) ∧
    (∀ call ∈ m.requeueCalls a, call.1 ≠ w) ∧ a.clears = false ∧ m.registersOn l a = false) ∧
  m.registers w a = false

instance (l : LinkId) (w : WorkerId) (m : Master) (a : Action) : Decidable (leavesCleanly l w m a) :=
  inferInstanceAs (Decidable ((_ → _ ∧ _ ∧ _ ∧ _) ∧ _))

theorem clean_exit_step (fenced : m.Fenced) (phase : m.Leaving l w ∨ m.Departed w) (good : leavesCleanly l w m a)
    (taken : m.step a = some m') : m'.Leaving l w ∨ m'.Departed w := by
  rcases phase with leaving | departed
  · obtain ⟨ended, spared, tabled, mute⟩ := good.1 leaving.draining
    rcases ends : m.ending a with _ | ⟨k, link⟩
    · refine .inl (leaving.kept fenced taken (fun _ => by simp [ends]) ?_ tabled mute)
      exact fun caller called => spared _ called rfl
    · by_cases mine : k = l
      · subst mine
        obtain ⟨free, idle⟩ := ended _ ends rfl
        obtain ⟨_, there, _⟩ := ending_eq_some ends
        have after := step_of_ending ends taken
        subst after
        refine .inr ⟨leaving.ends there free, ?_⟩
        rintro t ⟨task, found, owner, held⟩
        have before : m.tasks.get? t = some task := (cleanup_tasks m k link) ▸ found
        exact hasInFlight_eq_false.mp idle t ⟨task, before, owner, held⟩
      · refine .inl (leaving.kept fenced taken (fun _ => by simp [ends, mine]) ?_ tabled mute)
        exact fun caller called => spared _ called rfl
  · exact .inr (departed.kept fenced taken good.2)

/-- No REGISTER for `w` is granted. -/
def staysAway (w : WorkerId) (m : Master) (a : Action) : Prop := m.registers w a = false

/-- A clean exit is recorded as STOPPED and stays so. -/
theorem clean_exit_stopped {m₁ : Master} {link : Link} (run : Steps step anyStep initial m)
    (there : m.links[l]? = some link) (shutdown : link.pc.answersShutdown = true) (mine : link.workerId = some w)
    (seated : m.connections.get? w = some l) (draining : m.workers.statusOf w = some .draining)
    (alone : ∀ other ∈ m.links, other.pc.registering ≠ some w) (rest : Steps step (leavesCleanly l w) m m₁) :
    (∀ link₁, m₁.links[l]? = some link₁ → link₁.pc.ended = true → m₁.workers.statusOf w = some .stopped) ∧
    (m₁.workers.statusOf w = some .stopped → ∀ m₂, Steps step (staysAway w) m₁ m₂ →
      m₂.workers.statusOf w = some .stopped) := by
  have fenced := fenced_of_run run
  have leaving : m.Leaving l w := leaving_of_shutdown there shutdown mine seated draining alone
  have phase : m₁.Leaving l w ∨ m₁.Departed w :=
    rest.invariant_with (I := fun n => n.Leaving l w ∨ n.Departed w) (fun _ before => fenced.run before)
      (.inl leaving)
      (fun _ _ _ => clean_exit_step)
  rcases phase with leaving | departed
  · refine ⟨fun link₁ found ended => ?_, fun stopped => ?_⟩
    · obtain ⟨link', found', serving, _⟩ := leaving.serving
      rw [found] at found'
      cases found'
      rw [serving] at ended
      cases ended
    · rw [leaving.draining] at stopped
      cases stopped
  · refine ⟨fun _ _ _ => departed.1, fun _ m₂ later => ?_⟩
    have still : m₂.Departed w :=
      later.invariant_with (I := fun n => n.Departed w) (fun _ before => (fenced.run rest).run before) departed
        (fun _ _ _ fenced departed away taken => departed.kept fenced taken away)
    exact still.1

/-- `w` asks to leave while it works on `t`. -/
def leavingBusyRun : List Action :=
  [.submitTask "t" "ADD" [], .accept, .receive 0 (registerRequest "w") 0, .replySent 0, .startDispatcher,
    .dispatcherTick, .startDispatch 0 1000, .sendDrained 0, .receive 0 (shutdownRequest "w") 5]

/-- `w` answers, the call settles `t` and closes the connection. -/
def lastReplyRun : List Action :=
  [.replySent 0, .receive 0 (taskResult "t" 1 "success") 10, .resumeDispatch 0, .handlerRaises 0, .handlerClosed 0,
    .connectionClosed 0]

theorem lastReplyRun_stopped : ∃ m m₁, Steps step anyStep initial m ∧ Steps step (leavesCleanly 0 "w") m m₁ ∧
    m.workers.statusOf "w" = some .draining ∧ m₁.workers.statusOf "w" = some .stopped ∧
    ∀ m₂, Steps step (staysAway "w") m₁ m₂ → m₂.workers.statusOf "w" = some .stopped := by
  obtain ⟨m, m₁, run, rest, served, seated, draining, alone, ended⟩ : ∃ m m₁, Steps step anyStep initial m ∧
      Steps step (leavesCleanly 0 "w") m m₁ ∧
      (m.links[0]?).any (fun link : Link => link.pc.answersShutdown && decide (link.workerId = some "w")) = true ∧
      m.connections.get? "w" = some 0 ∧ m.workers.statusOf "w" = some .draining ∧
      (∀ other ∈ m.links, other.pc.registering ≠ some "w") ∧
      (m₁.links[0]?).any (fun link : Link => link.pc.ended) = true :=
    replay_twice leavingBusyRun lastReplyRun (by decide)
  obtain ⟨link, there, state⟩ := (Option.any_eq_true ..).mp served
  obtain ⟨link₁, there₁, ended⟩ := (Option.any_eq_true ..).mp ended
  obtain ⟨shutdown, mine⟩ := Bool.and_eq_true_iff.mp state
  obtain ⟨through, forever⟩ :=
    clean_exit_stopped run there shutdown (of_decide_eq_true mine) seated draining alone rest
  have stopped := through link₁ there₁ ended
  exact ⟨m, m₁, run, rest, draining, stopped, forever stopped⟩

/-- `w` answers and closes the connection at once: the handler reads the reply and
the end of the stream before the call that waits for the reply resumes. -/
def hastyExitRun : List Action :=
  leavingBusyRun ++ [.replySent 0, .receive 0 (taskResult "t" 1 "success") 10, .connectionLost 0, .handlerRaises 0,
    .handlerClosed 0, .resumeDispatch 0, .startMonitor]

theorem hastyExitRun_failed : ∃ m m', Steps step anyStep initial m ∧ m.step (.monitorTick 0 6000) = some m' ∧
    (∀ link ∈ m.links, link.pc.ended = true) ∧ m.callEnded 0 = true ∧
    (m.tasks.get? "t").map Task.status = some .completed ∧ m.workers.statusOf "w" = some .draining ∧
    m'.workers.statusOf "w" = some .failed :=
  replay_then hastyExitRun (Action.monitorTick 0 6000) (by decide)

end Leaving

/-! ### While a reply is awaited -/

/-- Call `d` waits for the reply to the current attempt at `t`, sent to the leaving
worker over its connection. Nothing else is in flight on the worker, and the
connection serves no other worker. -/
structure Shielded (m : Master) (l : LinkId) (w : WorkerId) (t : TaskId) (attempt : Nat) (d : DispatchId) : Prop where
  leaving : m.Leaving l w
  pending : ∃ link, m.links[l]? = some link ∧ link.lost = false ∧
    link.pending.get? (attemptRequestId t attempt) = some d
  waiting : ∃ drained, m.dispatches[d]? = some ⟨t, .sending l w attempt drained .waiting⟩
  current : m.isCurrentAttempt t w attempt = true
  only : ∀ u, m.scheduler.Holds u w → u = t
  sole : ∀ v, m.connections.get? v = some l → v = w

/-- The wait goes on: the worker has not ended its connection or answered, it is
not found stale, and the master is not closing connections. Besides, the waiting
call is not cancelled, and no message read on the connection makes
`decode_message` or `handle_request` raise or registers a worker. (`handlerRaises`
is the loss of the connection or a message whose decoding raises: an integer of too
many digits, too deep a nesting.) -/
def keepsWaiting (l : LinkId) (w : WorkerId) (t : TaskId) (attempt : Nat) (d : DispatchId) (m : Master) :
    Action → Bool
  | .connectionLost k | .handlerRaises k | .stopCloses k => k ≠ l
  | .stopClears => false
  | .monitorTick _ now => w ∉ (m.workers.getStaleWorkers heartbeatTimeout now).1
  | .abortDispatch e => e ≠ d
  | .receive k message now => k ≠ l || (message.requestId ≠ attemptRequestId t attempt &&
      (handleRequest m.workers message now).toBool && (grantedRegistration m.workers message now).isNone)
  | _ => true

section Shielded
variable {m m' : Master} {a : Action} {l : LinkId} {w : WorkerId} {t : TaskId} {attempt : Nat} {d : DispatchId}

/-- The task is RUNNING, and `d` is the only call that works on its attempt. -/
theorem Shielded.running (shielded : m.Shielded l w t attempt d) (fenced : m.Fenced) :
    ∃ task, m.tasks.get? t = some task ∧ task.assignedWorkerId = some w ∧ task.attempt = attempt ∧
      task.status = .running ∧ ∀ (e : DispatchId) k v drained reply,
        m.dispatches[e]? = some ⟨t, .sending k v attempt drained reply⟩ → e = d := by
  obtain ⟨drained, sending⟩ := shielded.waiting
  have sound := fenced.leases t
  have working : Lease.Sound (leaseRules t) (m.working t d w attempt) := by
    rw [working_of_sending sending]
    exact sound
  obtain ⟨task, found, owner, number, running⟩ := running_of_isCurrentAttempt working shielded.current
  refine ⟨task, found, owner, number, running, fun e k v drained' reply other => ?_⟩
  refine sound.alone e d v w ?_ ?_
  · simp [lease, other, Dispatch.holder, found, number]
  · simp [lease, sending, Dispatch.holder, found, number]

/-- A call whose attempt is current on the worker is call `d`. -/
theorem Shielded.same_call (shielded : m.Shielded l w t attempt d) (fenced : m.Fenced) {e : DispatchId} {u : TaskId}
    {k : LinkId} {number : Nat} {drained : Bool} {reply : Reply}
    (sending : m.dispatches[e]? = some ⟨u, .sending k w number drained reply⟩)
    (current : m.isCurrentAttempt u w number = true) : e = d ∧ u = t := by
  obtain ⟨task, found, _, same, _, alone⟩ := shielded.running fenced
  have working : Lease.Sound (leaseRules u) (m.working u e w number) := by
    rw [working_of_sending sending]
    exact fenced.leases u
  obtain rfl := shielded.only u (holds_of_isCurrentAttempt working current)
  obtain ⟨task', found', _, rfl⟩ := isCurrentAttempt_iff.mp current
  rw [found] at found'
  cases found'
  exact ⟨alone e k w drained reply (same ▸ sending), rfl⟩

theorem hasPending_of_get? {link : Link} {r : String} (pending : link.pending.get? r = some d) :
    link.hasPending = true := by
  have member := Dict.mem_entries.mpr pending
  cases entries : link.pending.entries with
  | nil => simp [entries] at member
  | cons _ _ => simp [Link.hasPending, entries]

/-- The handler of the connection goes on. -/
theorem Shielded.not_ending (shielded : m.Shielded l w t attempt d) (good : keepsWaiting l w t attempt d m a = true)
    (link : Link) : m.ending a ≠ some (l, link) := by
  intro ends
  obtain ⟨named, there, turn⟩ := ending_eq_some ends
  obtain ⟨link', there', _, mine, mute⟩ := shielded.leaving.serving
  rw [there] at there'
  cases there'
  obtain ⟨link', there', _, pending⟩ := shielded.pending
  rw [there] at there'
  cases there'
  have busy := hasPending_of_get? pending
  cases a with
  | receive k message now =>
    obtain rfl : k = l := Option.some.inj named
    simp only [keepsWaiting, ne_eq, not_true_eq_false, decide_false, Bool.false_or, Bool.and_eq_true] at good
    have current : m.isCurrentLink k link = true := by simp [isCurrentLink, mine, shielded.leaving.seated]
    simp only [handlerTurn] at turn
    split at turn
    · simp only [handleMessage, current, Bool.true_eq_false, and_false, if_false, Option.some.injEq] at turn
      split at turn
      · cases turn
      · split at turn
        · rename_i failure
          simp [failure, Except.toBool] at good
        · cases turn
    · cases turn
  | handlerRaises k =>
    obtain rfl : k = l := Option.some.inj named
    simp [keepsWaiting] at good
  | replySent k =>
    simp only [handlerTurn] at turn
    split at turn
    · cases turn
    · rename_i message response replying
      simp only [replying, HandlerPc.acksRegister, Bool.and_eq_false_iff, decide_eq_false_iff_not] at mute
      simp only [afterReply, busy, Bool.true_eq_false, and_false, if_false, Option.some.injEq] at turn
      split at turn
      · rename_i types
        rcases mute with other | other
        · exact other types.1
        · exact other types.2
      · cases turn
    · cases turn
  | receiveInvalid k | previousClosed k | handlerClosed k =>
    simp only [handlerTurn] at turn
    split at turn <;> cases turn
  | _ => cases named

/-- Nothing gives the worker up. -/
theorem Shielded.spared (shielded : m.Shielded l w t attempt d) (fenced : m.Fenced)
    (good : keepsWaiting l w t attempt d m a = true) (taken : m.step a = some m') (caller : Option TaskId) :
    (w, caller) ∉ m.requeueCalls a := by
  obtain ⟨task, found, owner, number, running, alone⟩ := shielded.running fenced
  obtain ⟨drained, waiting⟩ := shielded.waiting
  obtain ⟨link, there, open_, _⟩ := shielded.pending
  intro called
  cases a with
  | monitorTick i now =>
    obtain ⟨v, stale, same⟩ := List.mem_map.mp called
    cases same
    simp [keepsWaiting, stale] at good
  | startDispatch e depth =>
    obtain ⟨u, other, spawned, there', mine, assigned⟩ := unsendable_of_call called
    obtain rfl := shielded.only u ⟨other, there', mine, by rw [assigned]; rfl⟩
    rw [found] at there'
    cases there'
    simp [running] at assigned
  | sendFails e reason =>
    obtain ⟨u, k, attempt', drained', reply, sending, current⟩ := sendLost_of_call called
    obtain ⟨rfl, rfl⟩ := shielded.same_call fenced sending current
    cases drained <;> simp [Master.step, waiting, dispatchStep, there, open_] at taken
  | resumeDispatch e =>
    obtain ⟨u, k, attempt', drained', reason, sending, current⟩ := replyLost_of_call called
    obtain ⟨rfl, rfl⟩ := shielded.same_call fenced sending current
    rw [waiting] at sending
    cases sending
  | _ => cases called

theorem Shielded.mute {link : Link} (shielded : m.Shielded l w t attempt d) (there : m.links[l]? = some link) :
    link.pc.acksRegister = false := by
  obtain ⟨link', there', _, _, mute⟩ := shielded.leaving.serving
  rw [there] at there'
  cases there'
  exact mute

/-- A request_id names its task and attempt, and the task is not waiting to be sent. -/
theorem Shielded.other_request {u : TaskId} {other : Task} (shielded : m.Shielded l w t attempt d) (fenced : m.Fenced)
    (record : m.tasks.get? u = some other) (assigned : other.status = .assigned) :
    attemptRequestId t attempt ≠ attemptRequestId u other.attempt := by
  intro same
  obtain ⟨task, found, _, _, running, _⟩ := shielded.running fenced
  obtain ⟨rfl, _⟩ := attemptRequestId_injective same
  rw [found] at record
  cases record
  simp [running] at assigned

/-- The future of the call stays on its link. -/
theorem Shielded.pending_kept (shielded : m.Shielded l w t attempt d) (fenced : m.Fenced)
    (good : keepsWaiting l w t attempt d m a = true) (taken : m.step a = some m') :
    ∃ link, m'.links[l]? = some link ∧ link.lost = false ∧
      link.pending.get? (attemptRequestId t attempt) = some d := by
  obtain ⟨task, found, owner, number, running, alone⟩ := shielded.running fenced
  obtain ⟨drained, waiting⟩ := shielded.waiting
  obtain ⟨link, there, open_, pending⟩ := shielded.pending
  obtain ⟨link', there', relink⟩ := step_relink taken there
  refine ⟨link', there', ?_⟩
  cases relink with
  | same => exact ⟨open_, pending⟩
  | lost why => rcases why with rfl | rfl <;> simp [keepsWaiting] at good
  | ended ends => exact absurd ends (shielded.not_ending good link)
  | replying _ _ _ => exact ⟨open_, pending⟩
  | installed _ _ claims _ => simp [registering_of_acksRegister (shielded.mute there)] at claims
  | replaced _ other claims seated =>
    exact absurd (shielded.sole _ seated ▸ claims) (shielded.leaving.alone _ _ other)
  | handler _ _ _ _ => exact ⟨open_, pending⟩
  | written _ _ record assigned _ _ =>
    exact ⟨open_, by rw [Dict.get?_insert, if_neg (shielded.other_request fenced record assigned), pending]⟩
  | unsent _ _ record assigned =>
    exact ⟨open_, by rw [Dict.get?_erase, if_neg (shielded.other_request fenced record assigned), pending]⟩
  | @popped e u _ number' _ _ mine sending idle =>
    refine ⟨open_, ?_⟩
    rw [Dict.get?_erase, if_neg, pending]
    intro same
    obtain ⟨rfl, rfl⟩ := attemptRequestId_injective same
    obtain rfl := alone e _ _ _ _ sending
    rw [waiting] at sending
    cases sending
    rcases idle rfl with abort | lost
    · simp [abort, keepsWaiting] at good
    · simp [open_] at lost
  | closed _ sending current _ seated _ =>
    obtain rfl := shielded.sole _ seated
    obtain ⟨rfl, rfl⟩ := shielded.same_call fenced sending current
    rw [waiting] at sending
    cases sending

/-- The call goes on waiting for its reply. -/
theorem Shielded.waiting_kept (shielded : m.Shielded l w t attempt d) (fenced : m.Fenced)
    (good : keepsWaiting l w t attempt d m a = true) (taken : m.step a = some m') :
    ∃ drained, m'.dispatches[d]? = some ⟨t, .sending l w attempt drained .waiting⟩ := by
  obtain ⟨drained, waiting⟩ := shielded.waiting
  obtain ⟨link, there, open_, pending⟩ := shielded.pending
  obtain ⟨dispatch', there', advance⟩ := step_advance taken waiting
  cases advance with
  | same => exact ⟨drained, there'⟩
  | @failed k other _ _ _ _ _ reason ends member =>
    obtain ⟨⟨r, _⟩, entry, rfl⟩ := List.mem_map.mp member
    obtain ⟨_, there', _⟩ := ending_eq_some ends
    obtain ⟨rfl, _⟩ := fenced.base.wired.request_of_pended waiting there' (Dict.mem_entries.mp entry)
    exact absurd ends (shielded.not_ending good other)
  | @resolved k other message _ _ _ _ _ _ received at_ matched =>
    obtain ⟨rfl, named⟩ := fenced.base.wired.request_of_pended waiting at_ matched
    simp [received, keepsWaiting, named] at good
  | drained _ => exact ⟨true, there'⟩
  | sendLost _ at_ lost _ =>
    rw [there] at at_
    cases at_
    simp [open_] at lost
  | back _ answered _ => exact absurd rfl answered
  | aborted abort =>
    subst abort
    simp [keepsWaiting] at good

/-- The task stays with its worker and its attempt. -/
theorem Shielded.current_kept (shielded : m.Shielded l w t attempt d) (fenced : m.Fenced)
    (good : keepsWaiting l w t attempt d m a = true) (taken : m.step a = some m') :
    m'.isCurrentAttempt t w attempt = true := by
  obtain ⟨task, found, owner, number, running, _⟩ := shielded.running fenced
  have spared := shielded.spared fenced good taken
  obtain ⟨task', found', retask⟩ := step_retask taken found (by simp [running]) (fun v caller mine => by
    obtain rfl := Option.some.inj (owner.symm.trans mine)
    exact spared caller)
  refine isCurrentAttempt_iff.mpr ⟨task', found', ?_⟩
  cases retask with
  | same => exact ⟨owner, number⟩
  | started _ _ _ => exact ⟨owner, number⟩
  | finished _ _ _ _ _ => exact ⟨owner, number⟩
  | requeued called mine _ =>
    obtain rfl := Option.some.inj (owner.symm.trans mine)
    exact absurd called (spared _)

theorem Shielded.kept (shielded : m.Shielded l w t attempt d) (fenced : m.Fenced)
    (good : keepsWaiting l w t attempt d m a = true) (taken : m.step a = some m') : m'.Shielded l w t attempt d := by
  refine ⟨?_, shielded.pending_kept fenced good taken, shielded.waiting_kept fenced good taken,
    shielded.current_kept fenced good taken, ?_, ?_⟩
  · refine shielded.leaving.kept fenced taken (shielded.not_ending good) (shielded.spared fenced good taken) ?_ ?_
    · cases a <;> first | rfl | cases good
    · cases a with
      | receive k message now =>
        by_cases mine : k = l
        · simp only [keepsWaiting, mine, ne_eq, not_true_eq_false, decide_false, Bool.false_or,
            Bool.and_eq_true, Option.isNone_iff_eq_none] at good
          simp [registersOn, good.2]
        · simp [registersOn, mine]
      | _ => rfl
  · rintro u ⟨task', found', mine, held⟩
    rcases step_assigned taken found' mine held with ⟨other, before, mine, inFlight, _⟩ | ⟨idle, _⟩
    · exact shielded.only u ⟨other, before, mine, inFlight⟩
    · have idle := idle_of_assigning idle
      simp [shielded.leaving.draining] at idle
  · intro v seated
    have reseat := step_reseat taken v
    generalize m'.connections.get? v = seat at reseat seated
    cases reseat with
    | same => exact shielded.sole v seated
    | left _ _ _ => cases seated
    | taken _ there claims =>
      cases seated
      simp [registering_of_acksRegister (shielded.mute there)] at claims
    | cleared _ => cases seated

/-- Draining lets the current task finish. -/
theorem draining_lets_task_finish {link : Link} {drained : Bool} {m₁ : Master} (run : Steps step anyStep initial m)
    (there : m.links[l]? = some link) (shutdown : link.pc.answersShutdown = true) (mine : link.workerId = some w)
    (seated : m.connections.get? w = some l) (draining : m.workers.statusOf w = some .draining)
    (open_ : link.lost = false) (sent : link.pending.get? (attemptRequestId t attempt) = some d)
    (waiting : m.dispatches[d]? = some ⟨t, .sending l w attempt drained .waiting⟩)
    (current : m.isCurrentAttempt t w attempt = true) (only : ∀ u, m.scheduler.Holds u w → u = t)
    (sole : ∀ v, m.connections.get? v = some l → v = w) (alone : ∀ other ∈ m.links, other.pc.registering ≠ some w)
    (rest : Steps step (fun n a => keepsWaiting l w t attempt d n a = true) m m₁) :
    (∃ link₁, m₁.links[l]? = some link₁ ∧ link₁.lost = false ∧ link₁.pc.ended = false) ∧
      m₁.workers.statusOf w = some .draining := by
  have fenced := fenced_of_run run
  have shielded : m.Shielded l w t attempt d :=
    ⟨leaving_of_shutdown there shutdown mine seated draining alone, ⟨link, there, open_, sent⟩, ⟨drained, waiting⟩,
      current, only, sole⟩
  have still : m₁.Shielded l w t attempt d :=
    rest.invariant_with (I := fun n => n.Shielded l w t attempt d) (fun _ before => fenced.run before) shielded
      (fun _ _ _ fenced shielded good taken => shielded.kept fenced good taken)
  obtain ⟨link₁, there₁, serving, _⟩ := still.leaving.serving
  obtain ⟨link', there', lost, _⟩ := still.pending
  rw [there₁] at there'
  cases there'
  exact ⟨⟨link₁, there₁, lost, serving⟩, still.leaving.draining⟩

/-- The worker keeps sending heartbeats while it works. -/
def stillWorkingRun : List Action :=
  [.replySent 0, .receive 0 (heartbeat "w") 9, .replySent 0, .dispatcherTick, .startMonitor, .monitorTick 0 5000]

theorem stillWorkingRun_open : ∃ m m₁, Steps step anyStep initial m ∧ m.workers.statusOf "w" = some .draining ∧
    Steps step (fun n a => keepsWaiting 0 "w" "t" 1 0 n a = true) m m₁ ∧
    (∃ link₁, m₁.links[0]? = some link₁ ∧ link₁.lost = false ∧ link₁.pc.ended = false) ∧
    m₁.workers.statusOf "w" = some .draining := by
  obtain ⟨m, played⟩ : ∃ m, replay step anyStep initial leavingBusyRun = some m :=
    Option.isSome_iff_exists.mp (by decide)
  have sending : (replay step anyStep initial leavingBusyRun).map (fun m => m.dispatches[0]?) =
      some (some ⟨"t", .sending 0 "w" 1 true .waiting⟩) := rfl
  have state : (replay step anyStep initial leavingBusyRun).any (fun m => decide (
      (m.links[0]?).any (fun link : Link => link.pc.answersShutdown && decide (link.workerId = some "w") &&
        !link.lost && decide (link.pending.get? (attemptRequestId "t" 1) = some 0)) = true ∧
      m.connections.get? "w" = some 0 ∧ m.workers.statusOf "w" = some .draining ∧
      m.isCurrentAttempt "t" "w" 1 = true ∧ (∀ e ∈ m.tasks.entries, e.1 = "t") ∧
      (∀ e ∈ m.connections.entries, e.1 = "w") ∧ (∀ other ∈ m.links, other.pc.registering ≠ some "w"))) = true := by
    decide
  have later : ((replay step anyStep initial leavingBusyRun).bind (fun m =>
      replay step (fun n a => keepsWaiting 0 "w" "t" 1 0 n a = true) m stillWorkingRun)).isSome = true := by decide
  rw [played, Option.map_some, Option.some.injEq] at sending
  rw [played, Option.bind_some] at later
  rw [played, Option.any_some, decide_eq_true_eq] at state
  obtain ⟨m₁, replayed⟩ := Option.isSome_iff_exists.mp later
  obtain ⟨served, seated, draining, current, tasks, seats, alone⟩ := state
  obtain ⟨link, there, served⟩ := (Option.any_eq_true ..).mp served
  simp only [Bool.and_eq_true, decide_eq_true_eq, Bool.not_eq_true'] at served
  obtain ⟨⟨⟨shutdown, mine⟩, open_⟩, sent⟩ := served
  have only : ∀ u, m.scheduler.Holds u "w" → u = "t" := by
    rintro u ⟨task, found, _⟩
    exact tasks _ (Dict.mem_entries.mpr found)
  have sole : ∀ v, m.connections.get? v = some 0 → v = "w" := fun v found => seats _ (Dict.mem_entries.mpr found)
  have rest := replay_steps replayed
  exact ⟨m, m₁, replay_steps played, draining, rest,
    draining_lets_task_finish (replay_steps played) there shutdown mine
    seated draining open_ sent sending current only sole alone rest⟩

/-- The SHUTDOWN is read after `t` was assigned and before its dispatch starts. -/
def unsentTaskRun : List Action :=
  [.submitTask "t" "ADD" [], .accept, .receive 0 (registerRequest "w") 0, .replySent 0, .startDispatcher,
    .dispatcherTick, .receive 0 (shutdownRequest "w") 1]

theorem unsentTaskRun_stopped : ∃ m m₁, Steps step anyStep initial m ∧ m.step (.replySent 0) = some m₁ ∧
    (m.links[0]?).any (fun link => link.pc.answersShutdown && !link.lost) = true ∧
    m.connections.get? "w" = some 0 ∧ m.workers.statusOf "w" = some .draining ∧
    (m.tasks.get? "t").map (fun task => (task.assignedWorkerId, task.status)) = some (some "w", .assigned) ∧
    (m₁.links[0]?).any Link.lost = true ∧ m₁.workers.statusOf "w" = some .stopped ∧
    (m₁.tasks.get? "t").map (fun task => (task.assignedWorkerId, task.status)) = some (some "w", .assigned) :=
  replay_then unsentTaskRun (Action.replySent 0) (by decide)

end Shielded
end Master
end DistributedCompute
