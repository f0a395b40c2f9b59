import DistributedCompute.Replies
import DistributedCompute.Condemnation

/-! How the calls of `dispatch_assigned_task` end when the workers say nothing
more: the handler of a closed connection fails the futures of its link, and a call
that cannot reach its worker takes the tasks of the worker back. -/
namespace DistributedCompute
open Py Relation Transition
namespace Master

/-! ### The link of a current call holds its future -/

def Pends (m : Master) : Prop := ∀ d t l w attempt, m.Current d t l w attempt → m.Held d t l attempt

variable {m : Master}

theorem Pends.loosen {m' : Master} (pends : m.Pends) (loosens : Loosens m m') (retains : Retains m m') :
    m'.Pends := by
  intro d t l w attempt current
  exact retains d t l w attempt current (pends d t l w attempt (loosens d t l w attempt current).1)

theorem Pends.micro {mid : Master} {a : Action} (pends : m.Pends) (fenced : m.Fenced)
    (recorded : Succession.Recorded m.seats) (move : Micro m a mid) : mid.Pends := by
  rcases move.loosens fenced recorded with
    ⟨loosens, retains⟩ | ⟨d, _, t, task, w, l, rfl, spawned, found, assigned, _, connected, rfl⟩
  · exact pends.loosen loosens retains
  · obtain ⟨held, kept⟩ := held_writeTask (d := d) (works_of_fenced fenced) recorded found assigned connected
    intro e u k v number current
    rcases current_writeTask spawned current with ⟨rfl, rfl, rfl, rfl, rfl⟩ | before
    · exact held
    · exact kept e u k v number before (pends e u k v number before)

theorem pends_of_run {ok : Master → Action → Prop} (run : Steps step ok initial m) : m.Pends := by
  refine invariant_of_leases ?_ ?_ ?_ run
  · rintro d t l w attempt ⟨⟨_, _, sending⟩, _⟩
    cases sending
  · exact fun fenced recorded _ pends move => pends.micro fenced recorded move
  · intro s s' loop sound pends
    obtain ⟨loosens, same⟩ := loop.loosens sound
    exact pends.loosen loosens same.retains

end Master

/-! ### Steps of the master alone -/

namespace Master

/-- A coroutine of the master goes on by itself: no message arrives, no peer
disconnects and nothing is called or cancelled. A handler gets an error only from
a connection that is closed. -/
def ownStep (m : Master) : Action → Bool
  | .startDispatch _ _ | .sendDrained _ | .sendFails _ _ | .resumeDispatch _ | .connectionClosed _ | .resumeDrain _ _
  | .resumeMonitor _ | .replySent _ | .previousClosed _ | .handlerClosed _ => true
  | .handlerRaises l => (m.links[l]?).any Link.lost
  | _ => false

def isOpen (m : Master) (l : LinkId) : Bool := (m.links[l]?).any (fun link => !link.lost)

def handlerRuns (m : Master) (l : LinkId) : Bool := (m.links[l]?).any (fun link => !link.pc.ended)

end Master

/-- The call has the reply to the current attempt at the task. -/
def DispatchPc.answers (task : Task) : DispatchPc → Bool
  | .sending _ w attempt _ (.message _) => task.assignedWorkerId = some w && task.attempt = attempt
  | _ => false

/-- The call has a reply or an error, or is past waiting for one. -/
def DispatchPc.inHand : DispatchPc → Bool
  | .spawned | .sending _ _ _ _ .waiting => false
  | _ => true

namespace Master

/-- A call that starts now ends without a worker: its task is not ASSIGNED any more, or
the worker has no connection. -/
def startsAlone (m : Master) (t : TaskId) : Bool :=
  match m.tasks.get? t with
  | some task => task.status ≠ .assigned || (task.assignedWorkerId.bind m.connections.get?).isNone
  | none => true

/-- The call can end without a word from a worker. -/
def endsAlone (m : Master) (d : DispatchId) : Bool :=
  match m.dispatches[d]? with
  | some ⟨t, .spawned⟩ => m.startsAlone t
  | some ⟨_, pc⟩ => pc.inHand
  | none => false

/-- A call at `pc` can end the attempt at the task once the connections are closed:
it has yet to start, or it works on the current attempt and either has a reply that
settles the task, or an error, or can still get one. -/
def attends (m : Master) (task : Task) : DispatchPc → Bool
  | .spawned => task.status = .assigned
  | .sending l w attempt drained reply => task.assignedWorkerId = some w && task.attempt = attempt &&
      match reply with
      | .waiting => !drained || m.handlerRuns l
      | .message response => response.hasVerdict
      | .failed _ => true
  | _ => false

def attended (m : Master) (t : TaskId) (task : Task) : Bool :=
  m.dispatches.any (fun dispatch => dispatch.taskId = t && m.attends task dispatch.pc)

def isAnswered (m : Master) (t : TaskId) (task : Task) : Bool :=
  m.dispatches.any (fun dispatch => dispatch.taskId = t && dispatch.pc.answers task)

/-- Every task in flight is attended by a call. -/
def Manned (m : Master) : Prop :=
  ∀ t task, m.tasks.get? t = some task → task.status.inFlight = true → m.attended t task = true

variable {m m' : Master} {t : TaskId}

theorem any_dispatches {p : DispatchPc → Bool} :
    m.dispatches.any (fun dispatch => dispatch.taskId = t && p dispatch.pc) = true ↔
      ∃ (d : DispatchId) (pc : DispatchPc), m.dispatches[d]? = some ⟨t, pc⟩ ∧ p pc = true := by
  rw [List.any_eq_true]
  constructor
  · rintro ⟨⟨u, pc⟩, member, holds⟩
    obtain ⟨d, there⟩ := List.getElem?_of_mem member
    simp only [Bool.and_eq_true, decide_eq_true_eq] at holds
    obtain ⟨rfl, holds⟩ := holds
    exact ⟨d, pc, there, holds⟩
  · rintro ⟨d, pc, there, holds⟩
    exact ⟨⟨t, pc⟩, List.mem_of_getElem? there, by simp [holds]⟩

/-- The task is not in flight. -/
def Landed (m : Master) (t : TaskId) : Prop := ∀ task, m.tasks.get? t = some task → task.status.inFlight = false

/-- What a task becomes while the calls wind down. -/
def Wound (m : Master) (t : TaskId) (task task' : Task) : Prop :=
  task' = task ∨ (task.status.inFlight = true ∧ task'.status.inFlight = false ∧
    (task' = task.takenBack ∨ m.isAnswered t task = true))

/-- From `m` to `m'` no task is started and no connection opens: a task stays as it
is, or it is taken back from its worker or settled with a reply that was in hand. -/
structure Winds (m m' : Master) : Prop where
  settles : m.scheduler.Settles m'.scheduler
  records : ∀ t task, m.tasks.get? t = some task → ∃ task', m'.tasks.get? t = some task' ∧ m.Wound t task task'
  answers : ∀ t task, m'.isAnswered t task = true → m.isAnswered t task = true
  ended : ∀ d, m.callEnded d = true → m'.callEnded d = true
  alone : ∀ d, m.endsAlone d = true → m'.endsAlone d = true
  opens : ∀ l, m'.isOpen l = true → m.isOpen l = true
  monitors : ∀ j : Nat, m.monitors[j]? = some .waiting → m'.monitors[j]? = some .waiting
  unseated : ∀ w, m.connections.get? w = none → m'.connections.get? w = none
  manned : m.Manned → m'.Manned

variable {task task' : Task} {m'' : Master} {d : DispatchId} {pc : DispatchPc} {l : LinkId} {link : Link}

theorem Wound.trans {task'' : Task} (answers : m'.isAnswered t task' = true → m.isAnswered t task' = true)
    (first : m.Wound t task task') (second : m'.Wound t task' task'') : m.Wound t task task'' := by
  rcases second with rfl | ⟨flying, landed, how⟩
  · exact first
  · rcases first with rfl | ⟨_, finished, _⟩
    · exact .inr ⟨flying, landed, how.imp_right answers⟩
    · rw [finished] at flying
      cases flying

theorem Winds.refl (m : Master) : m.Winds m :=
  ⟨.refl _, fun _ task found => ⟨task, found, .inl rfl⟩, fun _ _ => id, fun _ => id, fun _ => id,
    fun _ => id, fun _ => id, fun _ => id, id⟩

theorem Winds.trans (first : m.Winds m') (second : m'.Winds m'') : m.Winds m'' where
  settles := first.settles.trans second.settles
  records t task found := by
    obtain ⟨task', found', wound⟩ := first.records t task found
    obtain ⟨task'', found'', wound'⟩ := second.records t task' found'
    exact ⟨task'', found'', wound.trans (first.answers t task') wound'⟩
  answers t task there := first.answers t task (second.answers t task there)
  ended d there := second.ended d (first.ended d there)
  alone d there := second.alone d (first.alone d there)
  opens l there := first.opens l (second.opens l there)
  monitors j waits := second.monitors j (first.monitors j waits)
  unseated w none := second.unseated w (first.unseated w none)
  manned manned := second.manned (first.manned manned)

/-- A task that is taken out of flight stays so. -/
theorem Winds.landed (winds : m.Winds m') (landed : m.Landed t) : m'.Landed t := by
  intro task' found
  by_contra flying
  obtain ⟨task, before, running, _⟩ := winds.settles.tasks t task' found (by simpa using flying)
  rw [landed task before] at running
  cases running

theorem Winds.closed (winds : m.Winds m') (closed : ∀ l, m.isOpen l = false) (l : LinkId) :
    m'.isOpen l = false := by
  by_contra opened
  have before := winds.opens l (by simpa using opened)
  rw [closed l] at before
  cases before

theorem endsAlone_of_inHand (there : m.dispatches[d]? = some ⟨t, pc⟩) (inHand : pc.inHand = true) :
    m.endsAlone d = true := by
  unfold endsAlone
  rw [there]
  cases pc with
  | spawned => cases inHand
  | sending | closing | returned | raised => exact inHand

/-- A task that is still in flight is as it was. -/
theorem kept_of_records (settles : m.scheduler.Settles m'.scheduler)
    (records : ∀ u task, m.tasks.get? u = some task → ∃ task', m'.tasks.get? u = some task' ∧ m.Wound u task task')
    (found : m'.tasks.get? t = some task') (flying : task'.status.inFlight = true) : m.tasks.get? t = some task' := by
  obtain ⟨task, before, _⟩ := settles.tasks t task' found flying
  obtain ⟨_, same, wound⟩ := records t task before
  rw [found] at same
  cases same
  rcases wound with rfl | ⟨_, landed, _⟩
  · exact before
  · rw [landed] at flying
    cases flying

theorem startsAlone_mono
    (kept : ∀ task', m'.tasks.get? t = some task' → task'.status.inFlight = true → m.tasks.get? t = some task')
    (unseated : ∀ w, m.connections.get? w = none → m'.connections.get? w = none) (alone : m.startsAlone t = true) :
    m'.startsAlone t = true := by
  unfold startsAlone at alone ⊢
  cases found : m'.tasks.get? t with
  | none => rfl
  | some task' =>
    by_cases assigned : task'.status = .assigned
    · rw [kept task' found (by rw [assigned]; rfl)] at alone
      simp only [assigned, ne_eq, not_true_eq_false, decide_false, Bool.false_or, Option.isNone_iff_eq_none,
        Option.bind_eq_none_iff] at alone ⊢
      exact fun w owner => unseated w (alone w owner)
    · simp [assigned]

/-- A call that is left as it was still ends alone. -/
theorem endsAlone_mono (same : m'.dispatches[d]? = m.dispatches[d]?)
    (starts : ∀ t, m.startsAlone t = true → m'.startsAlone t = true) (alone : m.endsAlone d = true) :
    m'.endsAlone d = true := by
  unfold endsAlone at alone ⊢
  rw [same]
  split at alone
  · exact starts _ alone
  · exact alone
  · cases alone

/-! ### One call goes on -/

/-- No handler moves and no closed connection opens. -/
structure SameHandlers (m m' : Master) : Prop where
  length : m'.links.length = m.links.length
  link : ∀ (l : LinkId) link, m.links[l]? = some link → ∃ link', m'.links[l]? = some link' ∧ link'.pc = link.pc ∧
    (link.lost = true → link'.lost = true)

namespace SameHandlers
variable {m m' m'' : Master}
variable {l : LinkId}

theorem of_links (links : m'.links = m.links) : SameHandlers m m' :=
  ⟨by rw [links], fun _ link there => ⟨link, by rw [links, there], rfl, id⟩⟩

theorem trans (first : SameHandlers m m') (second : SameHandlers m' m'') : SameHandlers m m'' := by
  refine ⟨second.length.trans first.length, fun l link there => ?_⟩
  obtain ⟨mid, found, pc, lost⟩ := first.link l link there
  obtain ⟨last, found', pc', lost'⟩ := second.link l mid found
  exact ⟨last, found', pc'.trans pc, fun gone => lost' (lost gone)⟩

theorem modifyLink (m : Master) (l : LinkId) {f : Link → Link} (pc : ∀ link, (f link).pc = link.pc)
    (lost : ∀ link, link.lost = true → (f link).lost = true) : SameHandlers m (m.modifyLink l f) := by
  refine ⟨by simp [Master.modifyLink], fun k link there => ?_⟩
  rw [links_modifyLink]
  split
  · exact ⟨f link, by rw [there]; rfl, pc link, lost link⟩
  · exact ⟨link, there, rfl, id⟩

theorem popPending (m : Master) (l : LinkId) (t : TaskId) (attempt : Nat) :
    SameHandlers m (m.popPending l t attempt) :=
  .modifyLink m l (fun _ => rfl) fun _ => id

theorem loseLink (m : Master) (l : LinkId) : SameHandlers m (m.loseLink l) :=
  .modifyLink m l (fun _ => rfl) fun _ _ => rfl

theorem back (same : SameHandlers m m') {link' : Link} (there : m'.links[l]? = some link') :
    ∃ link, m.links[l]? = some link ∧ link'.pc = link.pc ∧ (link.lost = true → link'.lost = true) := by
  have small : l < m.links.length := same.length ▸ (List.getElem?_eq_some_iff.mp there).1
  obtain ⟨link'', found, pc, lost⟩ := same.link l _ (List.getElem?_eq_getElem small)
  rw [there] at found
  cases found
  exact ⟨_, List.getElem?_eq_getElem small, pc, lost⟩

theorem isOpen (same : SameHandlers m m') (opened : m'.isOpen l = true) : m.isOpen l = true := by
  obtain ⟨link', there, lost'⟩ := (Option.any_eq_true ..).mp opened
  obtain ⟨link, found, _, lost⟩ := same.back there
  refine (Option.any_eq_true ..).mpr ⟨link, found, ?_⟩
  cases gone : link.lost with
  | false => rfl
  | true =>
    rw [lost gone] at lost'
    cases lost'

theorem handlerRuns (same : SameHandlers m m') (runs : m.handlerRuns l = true) :
    m'.handlerRuns l = true := by
  obtain ⟨link, there, live⟩ := (Option.any_eq_true ..).mp runs
  obtain ⟨link', found, pc, _⟩ := same.link l link there
  exact (Option.any_eq_true ..).mpr ⟨link', found, by rw [pc]; exact live⟩

theorem attends (same : SameHandlers m m') {task : Task} {pc : DispatchPc} (attends : m.attends task pc = true) :
    m'.attends task pc = true := by
  cases pc with
  | sending l w attempt drained reply =>
    cases reply with
    | waiting =>
      simp only [Master.attends, Bool.and_eq_true, Bool.or_eq_true] at attends ⊢
      exact ⟨attends.1, attends.2.imp_right same.handlerRuns⟩
    | message response => exact attends
    | failed reason => exact attends
  | _ => exact attends

end SameHandlers

/-- The fields of a state that a call of `dispatch_assigned_task` leaves alone. -/
structure Aside (m m' : Master) : Prop where
  handlers : SameHandlers m m'
  connections : m'.connections = m.connections
  monitors : m'.monitors = m.monitors

theorem Aside.trans (first : Aside m m') (second : Aside m' m'') : Aside m m'' :=
  ⟨first.handlers.trans second.handlers, second.connections.trans first.connections,
    second.monitors.trans first.monitors⟩

section Call
variable {m m' : Master} {d : DispatchId} {t : TaskId} {pc pc' : DispatchPc}
variable {w : WorkerId} {attempt : Nat} {response : Message} {l : LinkId} {drained : Bool} {reply : Reply}
variable {task : Task}

/-- Call `d` goes from `pc` to `pc'`, and if it attended a task then it still does
or the task is no longer in flight. -/
theorem winds_of_call (there : m.dispatches[d]? = some ⟨t, pc⟩) (suspended : pc.ended = false)
    (after : m'.dispatches = (m.setDispatch d pc').dispatches) (aside : Aside m m')
    (settles : m.scheduler.Settles m'.scheduler)
    (records : ∀ u task, m.tasks.get? u = some task → ∃ task', m'.tasks.get? u = some task' ∧ m.Wound u task task')
    (answers : ∀ task, pc'.answers task = true → pc.answers task = true) (later : pc'.inHand = true)
    (gone : ∀ task, m.tasks.get? t = some task → task.status.inFlight = true → m.attends task pc = true →
      m'.attends task pc' = true ∨ m'.Landed t) :
    m.Winds m' where
  settles := settles
  records := records
  answers u task answered := by
    obtain ⟨e, pc'', found, holds⟩ := any_dispatches.mp answered
    rw [after, dispatches_setDispatch] at found
    split at found
    · rename_i mine
      subst mine
      rw [there] at found
      cases found
      exact any_dispatches.mpr ⟨e, pc, there, answers task holds⟩
    · exact any_dispatches.mpr ⟨e, pc'', found, holds⟩
  ended e finished := by
    have apart : e ≠ d := by
      rintro rfl
      cases pc <;> simp [callEnded, dispatchPc, there, DispatchPc.ended] at finished suspended
    rw [callEnded, dispatchPc, after, dispatches_setDispatch, if_neg apart]
    exact finished
  alone e past := by
    by_cases mine : e = d
    · subst mine
      exact endsAlone_of_inHand (by rw [after, dispatches_setDispatch, if_pos rfl, there]; rfl) later
    · refine endsAlone_mono (by rw [after, dispatches_setDispatch, if_neg mine]) (fun u => ?_) past
      exact startsAlone_mono (fun _ => kept_of_records settles records) fun _ none => aside.connections ▸ none
  opens _ := aside.handlers.isOpen
  monitors _ waits := aside.monitors ▸ waits
  unseated _ none := aside.connections ▸ none
  manned manned u task' found' flying := by
    have found := kept_of_records settles records found' flying
    obtain ⟨e, pc'', call, holds⟩ := any_dispatches.mp (manned u task' found flying)
    refine any_dispatches.mpr ?_
    by_cases mine : e = d
    · subst mine
      rw [there] at call
      cases call
      rcases gone task' found flying holds with still | landed
      · exact ⟨e, pc', by rw [after, dispatches_setDispatch, if_pos rfl, there]; rfl, still⟩
      · rw [landed task' found'] at flying
        cases flying
    · exact ⟨e, pc'', by rw [after, dispatches_setDispatch, if_neg mine, call], aside.handlers.attends holds⟩

theorem recordIfTerminal_aside (m : Master) (t : TaskId) (response : Message) :
    Aside m (m.recordIfTerminal t response) := by
  unfold recordIfTerminal
  split
  · split <;> exact ⟨.of_links rfl, rfl, rfl⟩
  · exact ⟨.of_links rfl, rfl, rfl⟩

theorem Unreached.aside (outcome : Unreached m d t w attempt response m') : Aside m m' := by
  cases outcome with
  | late _ | unknown _ _ => exact ⟨.of_links rfl, rfl, rfl⟩
  | condemned _ _ =>
    have condemned : Aside m (m.condemnedWorker w) := ⟨.of_links rfl, rfl, rfl⟩
    exact condemned.trans ((recordIfTerminal_aside _ t response).trans ⟨.of_links rfl, rfl, rfl⟩)

theorem Unreached.leaves (outcome : Unreached m d t w attempt response m') :
    ∃ pc, pc.ended = true ∧ m'.dispatches = (m.setDispatch d pc).dispatches := by
  cases outcome with
  | late _ | unknown _ _ => exact ⟨_, rfl, rfl⟩
  | condemned _ _ =>
    refine ⟨.returned response, rfl, ?_⟩
    simp only [setDispatch, recordIfTerminal_dispatches, condemnedWorker]

theorem finishDispatch_aside (m : Master) (d : DispatchId) (t : TaskId) (response : Message) :
    Aside m (m.finishDispatch d t response) :=
  (recordIfTerminal_aside m t response).trans ⟨.of_links rfl, rfl, rfl⟩

theorem Settled.aside (outcome : Settled m d t w attempt response m') : Aside m m' := by
  cases outcome with
  | late _ | malformed | unknown _ _ _ _ => exact ⟨.of_links rfl, rfl, rfl⟩
  | settled _ _ =>
    have finished : Aside m (m.finishedTask t w response) := ⟨.of_links rfl, rfl, rfl⟩
    refine finished.trans ?_
    unfold closeIfDraining
    split
    · split
      · exact ⟨(SameHandlers.loseLink _ _).trans (.of_links rfl), rfl, rfl⟩
      · exact finishDispatch_aside _ d t response
    · exact finishDispatch_aside _ d t response

theorem Settled.leaves (outcome : Settled m d t w attempt response m') :
    ∃ pc, (pc.ended = true ∨ ∃ v number answer, pc = .closing v number answer) ∧
      m'.dispatches = (m.setDispatch d pc).dispatches := by
  cases outcome with
  | late _ | malformed | unknown _ _ _ _ => exact ⟨_, .inl rfl, rfl⟩
  | settled _ _ =>
    obtain ⟨pc, which, after⟩ := closeIfDraining_dispatches (m.finishedTask t w response) d t w attempt response
    refine ⟨pc, ?_, after⟩
    rcases which with rfl | rfl
    · exact .inr ⟨w, attempt, response, rfl⟩
    · exact .inl rfl

/-- A call that has left `send_task` has no reply to wait for or to read. -/
theorem left_send (pc : DispatchPc) (leaves : pc'.ended = true ∨ ∃ v number answer, pc' = .closing v number answer) :
    (∀ task, pc'.answers task = true → pc.answers task = true) ∧ pc'.inHand = true := by
  rcases leaves with ended | ⟨_, _, _, rfl⟩
  · cases pc' <;> simp_all [DispatchPc.answers, DispatchPc.ended, DispatchPc.inHand]
  · exact ⟨fun _ answers => (by cases answers), rfl⟩

theorem get?_unreachable (current : m.isCurrentAttempt t w attempt = true) (known : m.workers.contains w = true)
    (reason : String) (u : TaskId) :
    (m.unreachable d t w attempt reason).tasks.get? u = (m.tasks.get? u).map (Task.requeued w) := by
  simp only [unreachable, current, if_true, Scheduler.condemn_of_known known, Master.tasks, setDispatch,
    recordIfTerminal_scheduler, Scheduler.get?_condemned]

theorem callEnded_of_setDispatch (there : m.dispatches[d]? = some ⟨t, pc⟩)
    (after : m'.dispatches = (m.setDispatch d pc').dispatches) (ended : pc'.ended = true) :
    m'.callEnded d = true := by
  rw [callEnded, dispatchPc, after, dispatches_setDispatch, if_pos rfl, there]
  cases pc' <;> simp_all [DispatchPc.ended]

/-- The current call of a task in flight, and its worker. -/
theorem flying_of_current (fenced : m.Fenced)
    (sending : m.dispatches[d]? = some ⟨t, .sending l w attempt drained reply⟩)
    (current : m.isCurrentAttempt t w attempt = true) : ∃ task, m.tasks.get? t = some task ∧
      task.assignedWorkerId = some w ∧ task.attempt = attempt ∧ task.status = .running ∧
      m.workers.contains w = true := by
  obtain ⟨task, found, owner, number, running⟩ := works_of_fenced fenced d t l w attempt ⟨⟨_, _, sending⟩, current⟩
  obtain ⟨v, mine, known⟩ := fenced.base.owned t task found (by rw [running]; rfl)
  obtain rfl : w = v := Option.some.inj (owner.symm.trans mine)
  exact ⟨task, found, owner, number, running, known⟩

theorem current_of_attends (found : m.tasks.get? t = some task)
    (attends : m.attends task (.sending l w attempt drained reply) = true) :
    m.isCurrentAttempt t w attempt = true := by
  simp only [Master.attends, Bool.and_eq_true, decide_eq_true_eq] at attends
  exact isCurrentAttempt_iff.mpr ⟨task, found, attends.1⟩

/-- A call that finds its worker unreachable ends, and the task it attended is taken
back with all others of the worker. -/
theorem winds_unreachable (fenced : m.Fenced)
    (sending : m.dispatches[d]? = some ⟨t, .sending l w attempt drained reply⟩) (reason : String)
    (after : m' = (m.popPending l t attempt).unreachable d t w attempt reason) :
    m.Winds m' ∧ m'.callEnded d = true ∧ m'.connections = m.connections ∧
      (m.isCurrentAttempt t w attempt = true → m'.Landed t) := by
  subst after
  have outcome := unreachable_outcome (m.popPending l t attempt) d t w attempt reason
  have aside : Aside m _ := Aside.trans ⟨.popPending m l t attempt, rfl, rfl⟩ outcome.aside
  obtain ⟨pc', ended, after⟩ := outcome.leaves
  have landed : m.isCurrentAttempt t w attempt = true →
      ((m.popPending l t attempt).unreachable d t w attempt reason).Landed t := by
    intro current task' found'
    obtain ⟨task, found, owner, _, running, known⟩ := flying_of_current fenced sending current
    have flying : task.status.inFlight = true := by rw [running]; rfl
    have same : (m.popPending l t attempt).tasks.get? t = some task := found
    rw [get?_unreachable (m := m.popPending l t attempt) current known, same, Option.map_some, Task.requeued,
      if_pos ⟨owner, flying⟩] at found'
    cases found'
    exact Scheduler.takenBack_inFlight task
  refine ⟨?_, callEnded_of_setDispatch sending after ended, aside.connections, landed⟩
  obtain ⟨answers, later⟩ := left_send (.sending l w attempt drained reply) (.inl ended)
  refine winds_of_call sending rfl after aside outcome.settles ?_ answers later ?_
  · intro u task found
    rcases outcome.record found with same | ⟨_, _, flying, taken⟩
    · exact ⟨task, same, .inl rfl⟩
    · exact ⟨_, taken, .inr ⟨flying, Scheduler.takenBack_inFlight task, .inl rfl⟩⟩
  · exact fun task found _ attends => .inr (landed (current_of_attends found attends))

/-- A call that starts when its worker has no connection takes its task back. -/
theorem winds_start (fenced : m.Fenced) (spawned : m.dispatches[d]? = some ⟨t, .spawned⟩)
    (found : m.tasks.get? t = some task) (assigned : task.status = .assigned) (alone : m.startsAlone t = true)
    (depth : Nat) :
    m.Winds (m.beginDispatch d t depth) ∧ (m.beginDispatch d t depth).connections = m.connections ∧
      (m.beginDispatch d t depth).callEnded d = true ∧ (m.beginDispatch d t depth).Landed t := by
  obtain ⟨w, owner, known⟩ := fenced.base.owned t task found (by rw [assigned]; rfl)
  have unseated : m.connections.get? w = none := by simpa [startsAlone, found, assigned, owner] using alone
  have begun : m.beginDispatch d t depth = (m.startedTask t).unreachable d t w task.attempt "no connection" := by
    have inScheduler : m.scheduler.tasks.get? t = some task := found
    simp [beginDispatch, Scheduler.startTask, inScheduler, assigned, owner, unseated, startedTask]
  have outcome := unreachable_outcome (m.startedTask t) d t w task.attempt "no connection"
  rw [← begun] at outcome
  have started : (m.startedTask t).tasks.get? t = some { task with status := .running } := by
    rw [get?_startedTask, if_pos rfl, found]
    rfl
  have current : (m.startedTask t).isCurrentAttempt t w task.attempt = true :=
    isCurrentAttempt_iff.mpr ⟨_, started, owner, rfl⟩
  have records : ∀ u, (m.beginDispatch d t depth).tasks.get? u =
      ((m.startedTask t).tasks.get? u).map (Task.requeued w) := by
    intro u
    rw [begun]
    exact get?_unreachable current known _ u
  have takes : (m.beginDispatch d t depth).tasks.get? t = some task.takenBack := by
    rw [records, started, Option.map_some, Task.requeued, if_pos ⟨owner, rfl⟩]
    rfl
  have landed : (m.beginDispatch d t depth).Landed t := by
    intro task' found'
    rw [takes] at found'
    cases found'
    exact Scheduler.takenBack_inFlight task
  obtain ⟨pc', ended, after⟩ := outcome.leaves
  have aside : Aside m (m.startedTask t) := ⟨.of_links rfl, rfl, rfl⟩
  refine ⟨?_, (aside.trans outcome.aside).connections, callEnded_of_setDispatch spawned after ended, landed⟩
  obtain ⟨answers, later⟩ := left_send .spawned (.inl ended)
  refine winds_of_call spawned rfl after (aside.trans outcome.aside)
    ((settles_startedTask found assigned).trans outcome.settles) ?_ answers later (fun _ _ _ _ => .inr landed)
  · intro u other there
    by_cases mine : u = t
    · subst mine
      rw [found] at there
      cases there
      exact ⟨_, takes, .inr ⟨by rw [assigned]; rfl, Scheduler.takenBack_inFlight task, .inl rfl⟩⟩
    · refine ⟨other.requeued w, by rw [records, get?_startedTask, if_neg mine, there]; rfl, ?_⟩
      unfold Task.requeued
      split
      · rename_i held
        exact .inr ⟨held.2, Scheduler.takenBack_inFlight other, .inl rfl⟩
      · exact .inl rfl

/-- A call that starts when its task is not ASSIGNED any more raises. -/
theorem winds_raise (spawned : m.dispatches[d]? = some ⟨t, .spawned⟩)
    (other : ∀ task, m.tasks.get? t = some task → task.status ≠ .assigned) (depth : Nat) :
    m.beginDispatch d t depth = m.setDispatch d .raised ∧ m.Winds (m.setDispatch d .raised) := by
  constructor
  · unfold beginDispatch
    split
    · rename_i task s found started
      obtain ⟨_, found', assigned, _⟩ := Scheduler.startTask_ok started
      rw [found] at found'
      cases found'
      exact absurd assigned (other task found)
    · rfl
  · refine winds_of_call spawned rfl rfl ⟨.of_links rfl, rfl, rfl⟩ (.refl _)
      (fun u task found => ⟨task, found, .inl rfl⟩) (fun _ answers => by cases answers) rfl ?_
    intro task found _ attends
    exact absurd (by simpa [Master.attends] using attends) (other task found)

/-- A call that resumes with a reply of the current attempt settles its task, and
otherwise changes no task. -/
theorem winds_reply (fenced : m.Fenced)
    (sending : m.dispatches[d]? = some ⟨t, .sending l w attempt true (.message response)⟩)
    (after : m' = (m.popPending l t attempt).handleReply d t w attempt response) :
    m.Winds m' ∧ m'.connections = m.connections ∧
      (m'.callEnded d = true ∨ ∃ v number answer, m'.dispatches[d]? = some ⟨t, .closing v number answer⟩) ∧
      (m.isCurrentAttempt t w attempt = true → response.hasVerdict = true → m'.Landed t) := by
  subst after
  have outcome := handleReply_outcome (m.popPending l t attempt) d t w attempt response
  have aside : Aside m _ := Aside.trans ⟨.popPending m l t attempt, rfl, rfl⟩ outcome.aside
  obtain ⟨pc', leaves, after⟩ := outcome.leaves
  have landed : m.isCurrentAttempt t w attempt = true → response.hasVerdict = true →
      ((m.popPending l t attempt).handleReply d t w attempt response).Landed t := by
    intro current verdict task' found'
    obtain ⟨task, found, owner, number, running, known⟩ := flying_of_current fenced sending current
    have same : (m.popPending l t attempt).tasks.get? t = some task := found
    rw [handleReply_of_verdict same owner number running known verdict, tasks, closeIfDraining_scheduler] at found'
    have finished := get?_finishedTask (m.popPending l t attempt) t t w response
    rw [tasks] at finished
    rw [finished, if_pos rfl, same] at found'
    cases found'
    dsimp only
    split <;> rfl
  refine ⟨?_, aside.connections, ?_, landed⟩
  · obtain ⟨answers, later⟩ := left_send (.sending l w attempt true (.message response)) leaves
    refine winds_of_call sending rfl after aside outcome.settles ?_ answers later ?_
    · intro u task found
      rcases outcome.record found with same | ⟨rfl, current, status, ended, taken⟩
      · exact ⟨task, same, .inl rfl⟩
      · obtain ⟨task', found', owner, number, running, _⟩ := flying_of_current fenced sending current
        rw [found] at found'
        cases found'
        refine ⟨_, taken, .inr ⟨by rw [running]; rfl, ?_, .inr ?_⟩⟩
        · cases status <;> simp_all [TaskStatus.terminal, TaskStatus.inFlight]
        · exact any_dispatches.mpr ⟨d, _, sending, by simp [DispatchPc.answers, owner, number]⟩
    · intro task found _ attends
      have current := current_of_attends found attends
      simp only [Master.attends, Bool.and_eq_true] at attends
      exact .inr (landed current attends.2)
  · rcases leaves with ended | ⟨v, number, answer, rfl⟩
    · exact .inl (callEnded_of_setDispatch sending after ended)
    · refine .inr ⟨v, number, answer, ?_⟩
      rw [after, dispatches_setDispatch, if_pos rfl]
      have same : (m.popPending l t attempt).dispatches[d]? = _ := sending
      rw [same]
      rfl

/-- `send_message` returns; the call still waits for nothing. -/
theorem winds_drained (back : reply ≠ .waiting)
    (sending : m.dispatches[d]? = some ⟨t, .sending l w attempt false reply⟩) :
    m.Winds (m.setDispatch d (.sending l w attempt true reply)) := by
  refine winds_of_call sending rfl rfl ⟨.of_links rfl, rfl, rfl⟩ (.refl _) ?_ ?_ ?_ ?_
  · exact fun u task found => ⟨task, found, .inl rfl⟩
  · intro task answers
    cases reply <;> exact answers
  · cases reply with
    | waiting => exact absurd rfl back
    | message response => rfl
    | failed reason => rfl
  · intro task _ _ attends
    cases reply with
    | waiting => exact absurd rfl back
    | message response => exact .inl attends
    | failed reason => exact .inl attends

theorem winds_finish (closing : m.dispatches[d]? = some ⟨t, .closing w attempt response⟩) :
    m.Winds (m.finishDispatch d t response) := by
  refine winds_of_call closing rfl (finishDispatch_dispatches m d t response) (finishDispatch_aside m d t response)
    (by rw [finishDispatch_scheduler]; exact .refl _) ?_ (fun _ answers => by cases answers) rfl ?_
  · intro u task found
    exact ⟨task, by rw [tasks, finishDispatch_scheduler]; exact found, .inl rfl⟩
  · intro task _ _ attends
    cases attends

end Call

/-! ### Connections close -/

/-- Only connections change, and no handler moves. -/
theorem winds_of_handlers (scheduler : m'.scheduler = m.scheduler) (dispatches : m'.dispatches = m.dispatches)
    (handlers : SameHandlers m m')
    (monitors : ∀ j : Nat, m.monitors[j]? = some .waiting → m'.monitors[j]? = some .waiting)
    (unseated : ∀ w, m.connections.get? w = none → m'.connections.get? w = none) : m.Winds m' where
  settles := by
    rw [scheduler]
    exact .refl _
  records _ task found := ⟨task, by rw [tasks, scheduler]; exact found, .inl rfl⟩
  answers _ _ answered := by
    rw [isAnswered, dispatches] at answered
    exact answered
  ended _ finished := by
    rw [callEnded, dispatchPc, dispatches]
    exact finished
  alone _ := endsAlone_mono (by rw [dispatches]) fun _ =>
    startsAlone_mono (fun _ found _ => by rw [tasks, scheduler] at found; exact found) unseated
  opens _ := handlers.isOpen
  monitors := monitors
  unseated := unseated
  manned manned t task found flying := by
    rw [tasks, scheduler] at found
    obtain ⟨d, pc, there, attends⟩ := any_dispatches.mp (manned t task found flying)
    exact any_dispatches.mpr ⟨d, pc, by rw [dispatches, there], handlers.attends attends⟩

theorem winds_loseLink (m : Master) (l : LinkId) : m.Winds (m.loseLink l) :=
  winds_of_handlers rfl rfl (.loseLink m l) (fun _ => id) fun _ => id

theorem winds_clear (m : Master) : m.Winds { m with connections := ∅ } :=
  winds_of_handlers rfl rfl (.of_links rfl) (fun _ => id) fun _ _ => rfl

theorem cleanup_monitors (m : Master) (l : LinkId) (link : Link) : (m.cleanup l link).monitors = m.monitors := by
  simp only [cleanup]
  split
  · split <;> rfl
  · rfl

theorem cleanup_unseated {w : WorkerId} (unseated : m.connections.get? w = none) (l : LinkId) (link : Link) :
    (m.cleanup l link).connections.get? w = none := by
  rw [cleanup_connections, unseated, ite_self]

theorem failReply_same {reason : String} {dispatch : Dispatch}
    (still : ∀ l w attempt drained, dispatch.pc ≠ .sending l w attempt drained .waiting) :
    dispatch.failReply reason = dispatch := by
  unfold Dispatch.failReply
  split
  · rename_i waiting
    exact absurd waiting (still _ _ _ _)
  · rfl

/-- A call that attends to its task still does after the futures of a link failed: its
own failed with them, or its link is another one. -/
theorem attends_cleanup (pends : m.Pends) (there : m.links[l]? = some link) (found : m.tasks.get? t = some task)
    (before : m.dispatches[d]? = some ⟨t, pc⟩) (attends : m.attends task pc = true) :
    ∃ pc', (m.cleanup l link).dispatches[d]? = some ⟨t, pc'⟩ ∧ (m.cleanup l link).attends task pc' = true := by
  have after : (m.cleanup l link).dispatches[d]? = some
      (if d ∈ link.pending.values then Dispatch.failReply "Worker connection closed" ⟨t, pc⟩ else ⟨t, pc⟩) := by
    rw [cleanup_dispatches, dispatches_failPending, before]
    rfl
  have steady : Dispatch.failReply "Worker connection closed" ⟨t, pc⟩ = ⟨t, pc⟩ →
      (m.cleanup l link).dispatches[d]? = some ⟨t, pc⟩ := by
    intro same
    rw [after, same, ite_self]
  cases pc with
  | sending k w attempt drained reply =>
    cases reply with
    | waiting =>
      by_cases failed : d ∈ link.pending.values
      · rw [if_pos failed] at after
        refine ⟨_, after, ?_⟩
        simp only [Master.attends, Bool.and_eq_true] at attends ⊢
        exact ⟨attends.1, trivial⟩
      · rw [if_neg failed] at after
        refine ⟨_, after, ?_⟩
        -- the future would be held by the link of the handler that ends
        have elsewhere : k ≠ l := by
          rintro rfl
          have current := current_of_attends found attends
          obtain ⟨own, here, future⟩ := pends d t k w attempt ⟨⟨_, _, before⟩, current⟩
          rw [there] at here
          cases here
          exact failed (Dict.mem_values future)
        simp only [Master.attends, Bool.and_eq_true, Bool.or_eq_true] at attends ⊢
        refine ⟨attends.1, attends.2.imp_right fun runs => ?_⟩
        rw [handlerRuns, cleanup_links, links_modifyLink, if_neg elsewhere]
        exact runs
    | message response => exact ⟨_, steady rfl, attends⟩
    | failed reason => exact ⟨_, steady rfl, attends⟩
  | spawned => exact ⟨_, steady rfl, attends⟩
  | closing w attempt response => cases attends
  | returned response => cases attends
  | raised => cases attends

/-- A handler that ends fails the futures of its link, and so leaves every task in
flight attended. -/
theorem winds_cleanup (pends : m.Pends) (there : m.links[l]? = some link) :
    m.Winds (m.cleanup l link) where
  settles := settles_cleanup m l link
  records t task found := ⟨task, by rw [cleanup_tasks]; exact found, .inl rfl⟩
  answers t task answered := by
    obtain ⟨d, pc, after, answers⟩ := any_dispatches.mp answered
    rw [cleanup_dispatches, dispatches_failPending] at after
    obtain ⟨dispatch, before, failed⟩ := Option.map_eq_some_iff.mp after
    refine any_dispatches.mpr ⟨d, ?_⟩
    split at failed
    · unfold DispatchPc.answers at answers
      split at answers
      · obtain ⟨reply, rfl, which⟩ := failReply_sending failed
        rcases which with rfl | impossible
        · exact ⟨_, before, answers⟩
        · cases impossible
      · cases answers
    · exact ⟨pc, by rw [before, failed], answers⟩
  ended d finished := by
    obtain ⟨dispatch, before⟩ : ∃ dispatch, m.dispatches[d]? = some dispatch := by
      cases before : m.dispatches[d]? with
      | none => simp [callEnded, dispatchPc, before] at finished
      | some dispatch => exact ⟨dispatch, rfl⟩
    have ended : dispatch.pc.ended = true := by
      simp only [callEnded, dispatchPc, before, Option.map_some] at finished
      split at finished <;> simp_all [DispatchPc.ended]
    rw [callEnded, dispatchPc, cleanup_dispatches, dispatches_failPending, before, Option.map_some,
      failReply_same (by rintro _ _ _ _ waits; rw [waits] at ended; cases ended), ite_self]
    simpa [callEnded, dispatchPc, before] using finished
  alone d past := by
    refine endsAlone_mono ?_ (fun t => startsAlone_mono (fun task' found _ => cleanup_tasks m l link ▸ found)
      fun w none => cleanup_unseated none l link) past
    -- a call that ends alone waits for no future
    rw [cleanup_dispatches, dispatches_failPending]
    unfold endsAlone at past
    cases before : m.dispatches[d]? with
    | none => rfl
    | some dispatch =>
      rw [before] at past
      rw [Option.map_some, failReply_same, ite_self]
      rintro _ _ _ _ waits
      obtain ⟨t, pc⟩ := dispatch
      cases waits
      cases past
  opens k opened := by
    rw [isOpen, cleanup_links, links_modifyLink] at opened
    split at opened
    · cases found : m.links[k]? with
      | none => simp [found] at opened
      | some other => simp [found] at opened
    · exact opened
  monitors j waits := cleanup_monitors m l link ▸ waits
  unseated w none := cleanup_unseated none l link
  manned manned t task found flying := by
    rw [cleanup_tasks] at found
    obtain ⟨d, pc, before, attends⟩ := any_dispatches.mp (manned t task found flying)
    exact any_dispatches.mpr ⟨d, attends_cleanup pends there found before attends⟩

/-! ### Runs of the master alone -/

/-- A run of own steps that winds the calls down. -/
structure Unwinds (m m' : Master) : Prop where
  run : Steps step (fun m a => m.ownStep a = true) m m'
  winds : m.Winds m'

namespace Unwinds
variable {m m' m'' : Master}

theorem refl (m : Master) : m.Unwinds m := ⟨.refl, .refl m⟩

theorem trans (first : m.Unwinds m') (second : m'.Unwinds m'') : m.Unwinds m'' :=
  ⟨first.run.trans second.run, first.winds.trans second.winds⟩

theorem single {a : Action} (own : m.ownStep a = true) (taken : m.step a = some m') (winds : m.Winds m') :
    m.Unwinds m' :=
  ⟨.snoc .refl own taken, winds⟩

theorem reached (unwinds : m.Unwinds m') (run : Steps step anyStep initial m) : Steps step anyStep initial m' :=
  run.trans (unwinds.run.mono fun _ _ _ => trivial)

end Unwinds

/-- Call `d` has ended on the way, and no connection was entered or removed. -/
structure Ends (m : Master) (d : DispatchId) (m' : Master) : Prop where
  unwinds : m.Unwinds m'
  connections : m'.connections = m.connections
  ended : m'.callEnded d = true

/-- Take a step if it can be taken. -/
def tryStep (m : Master) (a : Action) : Master := (m.step a).getD m

/-- A call that is done with sending resumes, and ends once its connection is closed. -/
def resumed (m : Master) (d : DispatchId) : Master := (m.tryStep (.resumeDispatch d)).tryStep (.connectionClosed d)

/-- The call goes on with what it has. -/
def goesOn (m : Master) (d : DispatchId) : Master :=
  match m.dispatchPc d with
  | some .spawned => m.tryStep (.startDispatch d 0)
  | some (.sending _ _ _ false _) => (m.tryStep (.sendDrained d)).resumed d
  | some (.sending _ _ _ true _) => m.resumed d
  | _ => m.tryStep (.connectionClosed d)

section Runs
variable {m : Master} {d : DispatchId} {t : TaskId} {l : LinkId} {w : WorkerId} {attempt : Nat} {drained : Bool}
  {reply : Reply}
variable {a : Action}

theorem tryStep_of_step (taken : m.step a = some m') : m.tryStep a = m' := by
  rw [tryStep, taken]
  rfl

theorem step_closed {response : Message} (closing : m.dispatches[d]? = some ⟨t, .closing w attempt response⟩) :
    m.step (.connectionClosed d) = some (m.finishDispatch d t response) := by
  simp [step, closing, dispatchStep]

theorem tryStep_ended (ended : m.callEnded d = true) : m.tryStep (.connectionClosed d) = m := by
  have stuck : m.step (.connectionClosed d) = none := by
    cases there : m.dispatches[d]? with
    | none => simp [step, there]
    | some dispatch =>
      obtain ⟨t, pc⟩ := dispatch
      cases pc <;> simp_all [step, dispatchStep, callEnded, dispatchPc]
  rw [tryStep, stuck]
  rfl

/-- A call that has a reply or an error, and whose `send_message` has returned. -/
theorem resumes (fenced : m.Fenced) (back : reply ≠ .waiting)
    (sending : m.dispatches[d]? = some ⟨t, .sending l w attempt true reply⟩) :
    m.Ends d (m.resumed d) ∧ ∀ task, m.tasks.get? t = some task →
      m.attends task (.sending l w attempt true reply) = true → (m.resumed d).Landed t := by
  cases reply with
  | waiting => exact absurd rfl back
  | failed reason =>
    obtain ⟨winds, ended, connections, landed⟩ := winds_unreachable fenced sending reason rfl
    have taken : m.step (.resumeDispatch d) =
        some ((m.popPending l t attempt).unreachable d t w attempt reason) := by
      simp [step, sending, dispatchStep]
    rw [resumed, tryStep_of_step taken, tryStep_ended ended]
    exact ⟨⟨.single (a := .resumeDispatch d) rfl taken winds, connections, ended⟩,
      fun task found attends => landed (current_of_attends found attends)⟩
  | message response =>
    obtain ⟨winds, connections, leaves, landed⟩ := winds_reply fenced sending rfl
    have taken : m.step (.resumeDispatch d) =
        some ((m.popPending l t attempt).handleReply d t w attempt response) := by
      simp [step, sending, dispatchStep]
    have first := Unwinds.single (a := .resumeDispatch d) rfl taken winds
    have settles : ∀ task, m.tasks.get? t = some task →
        m.attends task (.sending l w attempt true (.message response)) = true →
          ((m.popPending l t attempt).handleReply d t w attempt response).Landed t := by
      intro task found attends
      have current := current_of_attends found attends
      simp only [Master.attends, Bool.and_eq_true] at attends
      exact landed current attends.2
    rw [resumed, tryStep_of_step taken]
    rcases leaves with ended | ⟨v, number, answer, closing⟩
    · rw [tryStep_ended ended]
      exact ⟨⟨first, connections, ended⟩, settles⟩
    · rw [tryStep_of_step (step_closed closing)]
      have last := Unwinds.single (a := .connectionClosed d) rfl (step_closed closing) (winds_finish closing)
      refine ⟨⟨first.trans last, ?_, ?_⟩, fun task found attends => ?_⟩
      · rw [(finishDispatch_aside _ d t answer).connections, connections]
      · exact callEnded_of_setDispatch closing (finishDispatch_dispatches _ d t answer) rfl
      · exact last.winds.landed (settles task found attends)

/-- A call that has a reply or an error can end. -/
theorem ends_of_reply (run : Steps step anyStep initial m) (back : reply ≠ .waiting)
    (sending : m.dispatches[d]? = some ⟨t, .sending l w attempt drained reply⟩) :
    m.Ends d (m.goesOn d) ∧ ∀ task, m.tasks.get? t = some task →
      m.attends task (.sending l w attempt drained reply) = true → (m.goesOn d).Landed t := by
  cases drained with
  | true =>
    rw [show m.goesOn d = m.resumed d by simp [goesOn, dispatchPc, sending]]
    exact resumes (fenced_of_run run) back sending
  | false =>
    have taken : m.step (.sendDrained d) = some (m.setDispatch d (.sending l w attempt true reply)) := by
      simp [step, sending, dispatchStep]
    have first := Unwinds.single (a := .sendDrained d) rfl taken (winds_drained back sending)
    have still : (m.setDispatch d (.sending l w attempt true reply)).dispatches[d]? =
        some ⟨t, .sending l w attempt true reply⟩ := by
      rw [dispatches_setDispatch, if_pos rfl, sending]
      rfl
    rw [show m.goesOn d = (m.setDispatch d (.sending l w attempt true reply)).resumed d by
      simp [goesOn, dispatchPc, sending, tryStep_of_step taken]]
    obtain ⟨⟨later, connections, ended⟩, landed⟩ := resumes (fenced_of_run (first.reached run)) back still
    refine ⟨⟨first.trans later, connections, ended⟩, fun task found attends => landed task found ?_⟩
    cases reply with
    | waiting => exact absurd rfl back
    | message response => exact attends
    | failed reason => exact attends

/-- A call that starts when its worker has no connection, or its task another call. -/
theorem ends_of_start (run : Steps step anyStep initial m) (spawned : m.dispatches[d]? = some ⟨t, .spawned⟩)
    (alone : m.startsAlone t = true) :
    m.Ends d (m.goesOn d) ∧ ∀ task, m.tasks.get? t = some task → task.status = .assigned →
      (m.goesOn d).Landed t := by
  have taken : m.step (.startDispatch d 0) = some (m.beginDispatch d t 0) := by simp [step, spawned, dispatchStep]
  rw [show m.goesOn d = m.beginDispatch d t 0 by simp [goesOn, dispatchPc, spawned, tryStep_of_step taken]]
  by_cases waits : ∃ task, m.tasks.get? t = some task ∧ task.status = .assigned
  · obtain ⟨task, found, assigned⟩ := waits
    obtain ⟨winds, connections, ended, landed⟩ := winds_start (fenced_of_run run) spawned found assigned alone 0
    exact ⟨⟨.single rfl taken winds, connections, ended⟩, fun _ _ _ => landed⟩
  · have other : ∀ task, m.tasks.get? t = some task → task.status ≠ .assigned :=
      fun task found assigned => waits ⟨task, found, assigned⟩
    obtain ⟨begun, winds⟩ := winds_raise spawned other 0
    rw [begun]
    exact ⟨⟨.single rfl (begun ▸ taken) winds, rfl, callEnded_of_setDispatch spawned rfl rfl⟩,
      fun task found assigned => absurd assigned (other task found)⟩

theorem ends_of_alone (run : Steps step anyStep initial m) (alone : m.endsAlone d = true) :
    m.Ends d (m.goesOn d) := by
  cases there : m.dispatches[d]? with
  | none => simp [endsAlone, there] at alone
  | some dispatch =>
    obtain ⟨t, pc⟩ := dispatch
    rw [endsAlone, there] at alone
    cases pc with
    | spawned => exact (ends_of_start run there alone).1
    | sending l w attempt drained reply =>
      have back : reply ≠ .waiting := by
        rintro rfl
        cases alone
      exact (ends_of_reply run back there).1
    | closing w attempt response =>
      rw [show m.goesOn d = m.finishDispatch d t response by
        simp [goesOn, dispatchPc, there, tryStep_of_step (step_closed there)]]
      exact ⟨.single (a := .connectionClosed d) rfl (step_closed there) (winds_finish there),
        (finishDispatch_aside m d t response).connections,
        callEnded_of_setDispatch there (finishDispatch_dispatches m d t response) rfl⟩
    | returned | raised =>
      have ended : m.callEnded d = true := by simp [callEnded, dispatchPc, there]
      rw [show m.goesOn d = m by simp [goesOn, dispatchPc, there, tryStep_ended ended]]
      exact ⟨.refl m, rfl, ended⟩

/-- Every call of a batch can end if none waits for a worker. -/
theorem ends_of_batch (run : Steps step anyStep initial m) (batch : List DispatchId)
    (alone : ∀ d ∈ batch, m.endsAlone d = true) :
    m.Unwinds (batch.foldl goesOn m) ∧ (batch.foldl goesOn m).connections = m.connections ∧
      ∀ d ∈ batch, (batch.foldl goesOn m).callEnded d = true := by
  induction batch generalizing m with
  | nil => exact ⟨.refl m, rfl, fun _ member => by cases member⟩
  | cons d rest ih =>
    obtain ⟨first, connections, ended⟩ := ends_of_alone run (alone d List.mem_cons_self)
    obtain ⟨later, connections', others⟩ := ih (first.reached run) fun e member =>
      first.winds.alone e (alone e (List.mem_cons_of_mem d member))
    refine ⟨first.trans later, connections'.trans connections, fun e member => ?_⟩
    rcases List.mem_cons.mp member with rfl | earlier
    · exact later.winds.ended e ended
    · exact others e earlier

/-- The handler of a closed connection fails the future of a call that waits. -/
theorem fails_of_handler (pends : m.Pends) (closed : m.isOpen l = false) (runs : m.handlerRuns l = true)
    (sending : m.dispatches[d]? = some ⟨t, .sending l w attempt drained .waiting⟩)
    (current : m.isCurrentAttempt t w attempt = true) :
    ∃ m' reason, m.Unwinds m' ∧ m'.tasks = m.tasks ∧
      m'.dispatches[d]? = some ⟨t, .sending l w attempt drained (.failed reason)⟩ := by
  obtain ⟨link, there, future⟩ := pends d t l w attempt ⟨⟨_, _, sending⟩, current⟩
  simp only [isOpen, handlerRuns, there, Option.any_some, Bool.not_eq_eq_eq_not, Bool.not_false, Bool.not_true]
    at closed runs
  refine ⟨m.cleanup l link, "Worker connection closed", ?_, cleanup_tasks m l link, ?_⟩
  · refine .single (a := .handlerRaises l) (by simp [ownStep, there, closed]) ?_ (winds_cleanup pends there)
    have ends : m.handlerTurn l link (.handlerRaises l) = some .ends := by
      cases pc : link.pc <;> simp_all [handlerTurn, HandlerPc.ended]
    simp [step, there, ends, takeTurn]
  · rw [cleanup_dispatches, dispatches_failPending, sending, Option.map_some, if_pos (Dict.mem_values future)]
    rfl

/-- With the connections closed and none left in the table, a task in flight that is
attended can be taken out of flight. -/
theorem lands (run : Steps step anyStep initial m) (closed : ∀ l, m.isOpen l = false)
    (unseated : ∀ w, m.connections.get? w = none) (manned : m.Manned) (t : TaskId) :
    ∃ m', m.Unwinds m' ∧ m'.Landed t := by
  have fenced := fenced_of_run run
  have pends := pends_of_run run
  by_cases landed : m.Landed t
  · exact ⟨m, .refl m, landed⟩
  · unfold Landed at landed
    push Not at landed
    obtain ⟨task, found, flying⟩ := landed
    obtain ⟨d, pc, there, attends⟩ := any_dispatches.mp (manned t task found (by simpa using flying))
    cases pc with
    | spawned =>
      simp only [Master.attends, decide_eq_true_eq] at attends
      have alone : m.startsAlone t = true := by simp [startsAlone, found, unseated]
      obtain ⟨ends, after⟩ := ends_of_start run there alone
      exact ⟨_, ends.unwinds, after task found attends⟩
    | sending l w attempt drained reply =>
      have current := current_of_attends found attends
      by_cases waits : reply = .waiting
      · subst waits
        cases drained with
        | false =>
          -- the send itself fails on the closed connection
          obtain ⟨link, inTable, _⟩ := pends d t l w attempt ⟨⟨_, _, there⟩, current⟩
          have lost : link.lost = true := by simpa [isOpen, inTable] using closed l
          obtain ⟨winds, _, _, after⟩ := winds_unreachable fenced there "closed" rfl
          refine ⟨_, .single (a := .sendFails d "closed") rfl ?_ winds, after current⟩
          simp [step, there, dispatchStep, inTable, lost]
        | true =>
          have runs : m.handlerRuns l = true := by
            simp only [Master.attends, Bool.and_eq_true, Bool.not_true, Bool.false_or] at attends
            exact attends.2
          obtain ⟨m₁, reason, first, same, failed⟩ := fails_of_handler pends (closed l) runs there current
          obtain ⟨ends, after⟩ := ends_of_reply (first.reached run) (by simp) failed
          refine ⟨_, first.trans ends.unwinds, after task (by rw [same, found]) ?_⟩
          simp only [Master.attends, Bool.and_eq_true] at attends ⊢
          exact ⟨attends.1, trivial⟩
      · obtain ⟨ends, after⟩ := ends_of_reply run waits there
        exact ⟨_, ends.unwinds, after task found attends⟩
    | closing w attempt response => cases attends
    | returned response => cases attends
    | raised => cases attends

theorem lands_all (run : Steps step anyStep initial m) (closed : ∀ l, m.isOpen l = false)
    (unseated : ∀ w, m.connections.get? w = none) (manned : m.Manned) :
    ∃ m', m.Unwinds m' ∧ ∀ t, m'.Landed t := by
  have each : ∀ ts : List TaskId, ∃ m', m.Unwinds m' ∧ ∀ t ∈ ts, m'.Landed t := by
    intro ts
    induction ts with
    | nil => exact ⟨m, .refl m, fun _ member => by cases member⟩
    | cons t rest ih =>
      obtain ⟨m₁, first, landed⟩ := ih
      obtain ⟨m₂, later, last⟩ := lands (first.reached run) (first.winds.closed closed)
        (fun w => first.winds.unseated w (unseated w)) (first.winds.manned manned) t
      refine ⟨m₂, first.trans later, fun u member => ?_⟩
      rcases List.mem_cons.mp member with rfl | earlier
      · exact last
      · exact later.winds.landed (landed u earlier)
  obtain ⟨m', unwinds, landed⟩ := each (m.tasks.entries.map Prod.fst)
  refine ⟨m', unwinds, fun t task' found' => ?_⟩
  by_contra flying
  obtain ⟨task, found, _⟩ := unwinds.winds.settles.tasks t task' found' (by simpa using flying)
  exact flying (landed t (List.mem_map.mpr ⟨(t, task), Dict.mem_entries.mpr found, rfl⟩) task' found')

/-! ### What goes on by itself before a stop -/

/-- The handlers of closed connections end. -/
def dropLost (m : Master) : Master :=
  (List.range m.links.length).foldl (fun m l => if m.isOpen l then m else m.tryStep (.handlerRaises l)) m

/-- The calls of a batch go on, if none of them waits for a worker. -/
def endBatch (m : Master) (batch : List DispatchId) : Master :=
  if batch.all m.endsAlone then batch.foldl goesOn m else m

/-- An unscoped drain goes on, if it has nothing to assign. -/
def resumeIdle (m : Master) (i : DrainId) : Master :=
  match m.drains[i]? with
  | some ⟨none, _, _, _, _⟩ => if (m.scheduler.assignAll none).1 = [] then m.tryStep (.resumeDrain i 0) else m
  | _ => m

/-- The fallback drain of the failure monitor goes on, and the monitor with it. -/
def sweepOut (m : Master) (j : Nat) : Master :=
  match m.monitors[j]? with
  | some (.sweeping i) =>
    match (m.drains[i]?).map Drain.pc with
    | some (.gathering batch) => ((m.endBatch batch).resumeIdle i).tryStep (.resumeMonitor j)
    | _ => m.tryStep (.resumeMonitor j)
  | _ => m

theorem unwinds_tryStep (each : ∀ m', m.step a = some m' → m.ownStep a = true ∧ m.Winds m') :
    m.Unwinds (m.tryStep a) := by
  unfold tryStep
  cases taken : m.step a with
  | none => exact .refl m
  | some m' => exact .single (each m' taken).1 taken (each m' taken).2

theorem unwinds_handlerRaises (run : Steps step anyStep initial m) (closed : m.isOpen l = false) :
    m.Unwinds (m.tryStep (.handlerRaises l)) := by
  refine unwinds_tryStep fun m' taken => ?_
  obtain ⟨link, there, turned⟩ := Option.bind_eq_some_iff.mp taken
  have lost : link.lost = true := by simpa [isOpen, there] using closed
  refine ⟨by simp [ownStep, there, lost], ?_⟩
  have ends : m.cleanup l link = m' := by
    cases pc : link.pc <;> simp_all [handlerTurn, takeTurn]
  exact ends ▸ winds_cleanup (pends_of_run run) there

theorem unwinds_dropLost (run : Steps step anyStep initial m) : m.Unwinds m.dropLost := by
  unfold dropLost
  generalize List.range m.links.length = ls
  induction ls generalizing m with
  | nil => exact .refl m
  | cons l rest ih =>
    have first : m.Unwinds (if m.isOpen l then m else m.tryStep (.handlerRaises l)) := by
      split
      · exact .refl m
      · rename_i closed
        exact unwinds_handlerRaises run (by simpa using closed)
    exact first.trans (ih (first.reached run))

theorem unwinds_endBatch (run : Steps step anyStep initial m) (batch : List DispatchId) :
    m.Unwinds (m.endBatch batch) := by
  unfold endBatch
  split
  · rename_i alone
    exact (ends_of_batch run batch (List.all_eq_true.mp alone)).1
  · exact .refl m

theorem winds_setDrain (m : Master) (i : DrainId) (f : Drain → Drain) : m.Winds (m.setDrain i f) :=
  winds_of_handlers rfl rfl (.of_links rfl) (fun _ => id) fun _ => id

theorem unwinds_resumeIdle (m : Master) (i : DrainId) : m.Unwinds (m.resumeIdle i) := by
  unfold resumeIdle
  split
  · rename_i there
    split
    · rename_i idle
      refine unwinds_tryStep fun m' taken => ⟨rfl, ?_⟩
      have round (n : Master) (responses : List Message) (timeout : Time) (deadline : Option Time) (pc : DrainPc)
          (nothing : (n.scheduler.assignAll none).1 = []) :
          n.Winds (n.drainRound i ⟨none, timeout, deadline, responses, pc⟩ 0) := by
        simp only [drainRound, nothing, ne_eq, not_true_eq_false, if_false]
        exact winds_setDrain n i _
      simp only [step, there, Option.bind_some, drainStep] at taken
      split at taken
      · unfold gathered at taken
        split at taken
        · cases taken
          exact winds_setDrain m i _
        · split at taken
          · cases taken
          · cases taken
            exact (winds_setDrain m i _).trans (round _ _ _ _ _ idle)
      · cases taken
        exact round m _ _ _ _ idle
      · cases taken
    · exact .refl m
  · exact .refl m

theorem unwinds_resumeMonitor (m : Master) (j : Nat) : m.Unwinds (m.tryStep (.resumeMonitor j)) := by
  refine unwinds_tryStep fun m' taken => ⟨rfl, ?_⟩
  obtain ⟨pc, there, moved⟩ := Option.bind_eq_some_iff.mp taken
  simp only [monitorStep] at moved
  split at moved
  · -- the monitor that goes on was not between two ticks
    have others : ∀ pc' (k : Nat), m.monitors[k]? = some .waiting →
        (m.setMonitor j pc').monitors[k]? = some .waiting := by
      intro pc' k waits
      have apart : j ≠ k := by
        rintro rfl
        rw [there] at waits
        cases waits
      rw [setMonitor, List.getElem?_set_ne apart, waits]
    split at moved
    · cases moved
      exact winds_of_handlers rfl rfl (.of_links rfl) (others _) fun _ => id
    · cases moved
      exact winds_of_handlers rfl rfl (.of_links rfl) (others _) fun _ => id
    · cases moved
  · cases moved

theorem unwinds_sweepOut (run : Steps step anyStep initial m) (j : Nat) : m.Unwinds (m.sweepOut j) := by
  unfold sweepOut
  split
  · split
    · rename_i batch _
      exact ((unwinds_endBatch run batch).trans (unwinds_resumeIdle _ _)).trans (unwinds_resumeMonitor _ j)
    · exact unwinds_resumeMonitor m j
  · exact .refl m

end Runs
end Master
end DistributedCompute
