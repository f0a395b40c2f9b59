import DistributedCompute.Exclusivity
import DistributedCompute.TaskRecords
import DistributedCompute.ThreadedMaster

/-! Threads that dispatch tasks against the records of those tasks. The locals of
`dispatch_assigned_task` are read without the lock and may be torn: the connection of one
worker, the id of another and the attempt of a third assignment. What holds all the same
rests on `start_task`, which one thread passes for each attempt. -/
namespace DistributedCompute
open Py Relation Transition

theorem getElem?_set_cases {α : Type*} {xs : List α} {i j : Nat} {x y z : α} (here : xs[i]? = some x)
    (there : (xs.set i y)[j]? = some z) : (j = i ∧ z = y) ∨ (j ≠ i ∧ xs[j]? = some z) := by
  by_cases apart : j = i
  · subst apart
    rw [List.getElem?_set_self (List.getElem?_eq_some_iff.mp here).1] at there
    exact .inl ⟨rfl, (Option.some.inj there).symm⟩
  · rw [List.getElem?_set_ne (Ne.symm apart)] at there
    exact .inr ⟨apart, there⟩

namespace ThreadPc

/-- Before `start_task`. -/
def begins : ThreadPc → Bool
  | .entered | .looked _ | .owned _ _ | .captured _ => true
  | _ => false

/-- The locals of a thread that has passed `start_task` and has not ended. -/
def working? : ThreadPc → Option Capture
  | .sending locals | .receiving locals | .answered locals _ | .unreachable locals _ => some locals
  | _ => none

end ThreadPc

/-! ### Threads and the records of their tasks -/

/-- Attempt `p` of the task has been started. -/
structure Task.Claimed (task : Task) (p : Nat) : Prop where
  first : 1 ≤ p
  made : p ≤ task.attempt
  begun : p = task.attempt → task.status ≠ .assigned

namespace DispatchThread

/-- The thread against the record of its task. It works for an attempt that it has claimed
itself; the attempt that it has read is that one or an earlier one. -/
structure Sound (task : Task) (thread : DispatchThread) : Prop where
  fresh : thread.pc.begins = true → thread.claim = none
  early : ∀ locals, thread.pc = .captured locals → locals.attempt ≤ task.attempt
  claimed : ∀ p, thread.claim = some p → task.Claimed p
  working : ∀ locals, thread.pc.working? = some locals → ∃ p, thread.claim = some p ∧ locals.attempt ≤ p ∧
    (p = task.attempt → task.assignedWorkerId = none ∨ task.status = .running)

variable {task task' : Task} {thread : DispatchThread}

theorem sound_start (t : TaskId) (task : Task) : (start t).Sound task where
  fresh := fun _ => rfl
  early := fun _ read => ThreadPc.noConfusion read
  claimed := fun _ mine => absurd mine (Option.some_ne_none _).symm
  working := fun _ works => absurd works (Option.some_ne_none _).symm

/-- The record moves on, and the current attempt is not taken away from the thread. -/
theorem Sound.mono (sound : thread.Sound task) (grown : task.attempt ≤ task'.attempt)
    (still : thread.claim = some task'.attempt → task'.status ≠ .assigned ∧
      (thread.pc.working? ≠ none → task'.assignedWorkerId = none ∨ task'.status = .running)) :
    thread.Sound task' := by
  refine ⟨sound.fresh, fun locals read => (sound.early locals read).trans grown, fun p mine => ?_,
    fun locals works => ?_⟩
  · obtain ⟨first, made, _⟩ := sound.claimed p mine
    refine ⟨first, made.trans grown, fun current => (still ?_).1⟩
    rw [mine, current]
  · obtain ⟨p, mine, read, _⟩ := sound.working locals works
    refine ⟨p, mine, read, fun current => (still ?_).2 ?_⟩
    · rw [mine, current]
    · rw [works]
      exact Option.some_ne_none locals

/-- A thread whose attempt is past does not mind what becomes of the record. -/
theorem Sound.past (sound : thread.Sound task) (grown : task.attempt ≤ task'.attempt)
    (late : thread.claim ≠ some task'.attempt) : thread.Sound task' :=
  sound.mono grown fun mine => absurd mine late

theorem Sound.ends {pc : ThreadPc} (sound : thread.Sound task) (notBegins : pc.begins = false)
    (notWorks : pc.working? = none) : Sound task { thread with pc } := by
  refine ⟨fun begins => ?_, fun locals captured => ?_, sound.claimed, fun locals works => ?_⟩
  · exact absurd (notBegins.symm.trans begins) Bool.false_ne_true
  · obtain rfl : pc = .captured locals := captured
    cases notBegins
  · exact absurd (notWorks.symm.trans works) (Option.some_ne_none _).symm

/-- The task may be taken back from its worker. -/
theorem Sound.takenBack {held : Prop} [Decidable held] (sound : thread.Sound task) :
    thread.Sound (if held then task.takenBack else task) := by
  split
  · refine sound.mono (Nat.le_refl _) fun _ => ⟨?_, fun _ => .inl rfl⟩
    unfold Task.takenBack
    simp only
    split <;> exact TaskStatus.noConfusion
  · exact sound

/-- The attempt of a thread that works on the current attempt of a task that has an owner
is running. -/
theorem Sound.current (sound : thread.Sound task) {locals : Capture} (works : thread.pc.working? = some locals)
    (same : task.attempt = locals.attempt) :
    thread.claim = some task.attempt ∧ task.status ≠ .assigned ∧
      (task.assignedWorkerId = none ∨ task.status = .running) := by
  obtain ⟨p, mine, read, running⟩ := sound.working locals works
  obtain ⟨_, made, begun⟩ := sound.claimed p mine
  have current : p = task.attempt := Nat.le_antisymm made (same ▸ read)
  exact ⟨current ▸ mine, begun current, running current⟩

end DispatchThread

/-! ### What the steps do to the scheduler and the threads -/

/-- A step of a thread, with what it does to the scheduler. -/
inductive Progress (s : Scheduler) (thread : DispatchThread) : Scheduler → DispatchThread → Prop
  | begins {pc : ThreadPc} : thread.pc.begins = true → pc.begins = true →
      (∀ locals, pc = .captured locals → ∃ task, s.tasks.get? thread.task = some task ∧
        locals.attempt = task.attempt) → Progress s thread s { thread with pc }
  | works {pc : ThreadPc} {locals : Capture} : thread.pc.working? = some locals → pc.working? = some locals →
      Progress s thread s { thread with pc }
  | ends {pc : ThreadPc} : thread.finished = false → pc.begins = false → pc.working? = none →
      Progress s thread s { thread with pc }
  | starts {task : Task} {locals : Capture} : thread.pc = .captured locals →
      s.tasks.get? thread.task = some task → task.status = .assigned →
      Progress s thread (s.setTaskStatus thread.task .running)
        { thread with claim := some task.attempt, pc := .sending locals }
  | finishes {task : Task} {w : WorkerId} {response : Message} : thread.finished = false →
      s.tasks.get? thread.task = some task → task.status = .running → task.assignedWorkerId = some w →
      thread.claim = some task.attempt →
      Progress s thread
        ((s.setTaskStatus thread.task (if response.isSuccess then .completed else .failed)).released w)
        { thread with pc := .returned response }
  | abandons {task : Task} {response : Message} : thread.finished = false →
      s.tasks.get? thread.task = some task → task.status.inFlight = false → task.assignedWorkerId = none →
      thread.claim = some task.attempt → response.isSuccess = false →
      Progress s thread (s.setTaskStatus thread.task .failed) { thread with pc := .returned response }
  | condemns {task : Task} {w : WorkerId} {response : Message} : thread.finished = false →
      s.tasks.get? thread.task = some task → task.status = .running → task.assignedWorkerId = some w →
      Progress s thread (s.condemned w) { thread with pc := .returned response }

namespace Progress
variable {s s' : Scheduler} {thread thread' : DispatchThread}

theorem unfinished (progress : Progress s thread s' thread') : thread.finished = false := by
  have of_begins (begins : thread.pc.begins = true) : thread.finished = false := by
    cases h : thread.pc <;> simp_all [ThreadPc.begins, DispatchThread.finished]
  cases progress with
  | begins begins _ _ => exact of_begins begins
  | works works _ => cases h : thread.pc <;> simp_all [ThreadPc.working?, DispatchThread.finished]
  | starts pc _ _ => exact of_begins (by rw [pc]; rfl)
  | ends unfinished _ _ | finishes unfinished _ _ _ _ | abandons unfinished _ _ _ _ _ | condemns unfinished _ _ _ =>
    exact unfinished

theorem task (progress : Progress s thread s' thread') : thread'.task = thread.task := by
  cases progress <;> rfl

end Progress

/-- The scheduler and the threads on its tasks. -/
abbrev Ledger := Scheduler × List DispatchThread

namespace Ledger

inductive Change : Ledger → Ledger → Prop
  | request {s : Scheduler} {ts : List DispatchThread} {message response : Message} {now : Time}
      {ws : WorkerManager} : Handled s.workers message now response ws → Change (s, ts) ({ s with workers := ws }, ts)
  | submit {s : Scheduler} {ts : List DispatchThread} {t : TaskId} {taskType : String}
      {payload : List (Key × Val)} : s.tasks.get? t = none →
      Change (s, ts) ({ s with tasks := s.tasks.insert t ⟨taskType, payload, .pending, none, 0⟩ }, ts)
  | stale {s : Scheduler} {ts : List DispatchThread} (timeout now : Time) :
      Change (s, ts) ((s.condemnStale timeout now).2, ts)
  | assign {s s' : Scheduler} {ts : List DispatchThread} {t : TaskId} : s.Grants t s' →
      Change (s, ts) (s', ts ++ [.start t])
  | turn {s s' : Scheduler} {ts : List DispatchThread} {d : ThreadId} {thread thread' : DispatchThread} :
      ts[d]? = some thread → Progress s thread s' thread' → Change (s, ts) (s', ts.set d thread')

/-- How a terminal task came to its end: no attempt was left, or the thread that had claimed
the last attempt has returned the response that decided. -/
def Decided (ts : List DispatchThread) (t : TaskId) (task : Task) : Prop :=
  (task.status = .failed ∧ task.assignedWorkerId = none ∧ task.attempt = maxTaskAttempts) ∨
  ∃ (d : ThreadId) (response : Message), ts[d]? = some ⟨t, some task.attempt, .returned response⟩ ∧
    (task.status = .completed ↔ response.isSuccess = true)

structure Fenced (s : Scheduler) (ts : List DispatchThread) : Prop where
  records : s.Records
  exclusive : s.Exclusive
  bounded : ∀ t task, s.tasks.get? t = some task → task.attempt ≤ maxTaskAttempts
  sound : ∀ (d : ThreadId) (thread : DispatchThread), ts[d]? = some thread →
    ∃ task, s.tasks.get? thread.task = some task ∧ thread.Sound task
  alone : ∀ (d e : ThreadId) (x y : DispatchThread) (p : Nat), ts[d]? = some x → ts[e]? = some y →
    x.task = y.task → x.claim = some p → y.claim = some p → d = e
  decided : ∀ t task, s.tasks.get? t = some task → task.status.terminal = true → Decided ts t task
  counted : ∀ t task, s.tasks.get? t = some task → ts.countP (fun thread => thread.task = t) = task.attempt

variable {s s' : Scheduler} {ts ts' : List DispatchThread} {d : ThreadId} {thread thread' : DispatchThread}

/-! ### Every change keeps the fence -/

theorem countP_set (here : ts[d]? = some thread) (same : thread'.task = thread.task) (t : TaskId) :
    (ts.set d thread').countP (fun x => x.task = t) = ts.countP (fun x => x.task = t) := by
  induction ts generalizing d with
  | nil => rfl
  | cons x rest ih =>
    cases d with
    | zero =>
      obtain rfl : x = thread := Option.some.inj here
      simp only [List.set_cons_zero, List.countP_cons, same]
    | succ d => simp only [List.set_cons_succ, List.countP_cons, ih (d := d) here]

variable {t : TaskId}

theorem Decided.set {task : Task} (decided : Decided ts t task) (here : ts[d]? = some thread)
    (unfinished : thread.finished = false) (thread' : DispatchThread) : Decided (ts.set d thread') t task := by
  refine decided.imp_right fun ⟨e, response, there, agrees⟩ => ⟨e, response, ?_, agrees⟩
  rw [List.getElem?_set_ne, there]
  rintro rfl
  obtain rfl := Option.some.inj (here.symm.trans there)
  cases unfinished

theorem Decided.append {task : Task} (decided : Decided ts t task) (more : List DispatchThread) :
    Decided (ts ++ more) t task :=
  decided.imp_right fun ⟨e, response, there, agrees⟩ =>
    ⟨e, response, List.getElem?_append_left (List.getElem?_eq_some_iff.mp there).1 ▸ there, agrees⟩

theorem decided_takenBack {task : Task} {held : Prop} [Decidable held] (bounded : task.attempt ≤ maxTaskAttempts)
    (kept : task.status.terminal = true → Decided ts t task)
    (ended : (if held then task.takenBack else task).status.terminal = true) :
    Decided ts t (if held then task.takenBack else task) := by
  by_cases taken : held
  · rw [if_pos taken] at ended ⊢
    unfold Task.takenBack at ended ⊢
    simp only at ended
    split at ended
    · rename_i last
      exact .inl ⟨if_pos last, rfl, Nat.le_antisymm bounded last⟩
    · cases ended
  · rw [if_neg taken] at ended ⊢
    exact kept ended

theorem attempt_takenBack {held : Prop} [Decidable held] (task : Task) :
    (if held then task.takenBack else task).attempt = task.attempt := by
  split <;> rfl

/-- A thread that has not ended and has claimed an attempt is the only one that has. -/
theorem Fenced.others (fenced : Fenced s ts) (here : ts[d]? = some thread) {p : Nat} (mine : thread.claim = some p)
    {e : ThreadId} {x : DispatchThread} (there : ts[e]? = some x) (apart : e ≠ d) (same : x.task = thread.task) :
    x.claim ≠ some p :=
  fun also => apart (fenced.alone e d x thread p there here same also mine)

/-- One thread takes a step, and the records change as `f` says. -/
theorem Fenced.turn {f : TaskId → Task → Task} (fenced : Fenced s ts) (here : ts[d]? = some thread)
    (records : s'.Records) (exclusive : s'.Exclusive) (same : thread'.task = thread.task)
    (tasks : ∀ u, s'.tasks.get? u = (s.tasks.get? u).map (f u))
    (attempts : ∀ u task, (f u task).attempt = task.attempt)
    (others : ∀ e x task, e ≠ d → ts[e]? = some x → s.tasks.get? x.task = some task → x.Sound task →
      x.Sound (f x.task task))
    (mine : ∀ task, s.tasks.get? thread.task = some task → thread.Sound task → thread'.Sound (f thread.task task))
    (claims : ∀ p, thread'.claim = some p → ∀ e x, e ≠ d → ts[e]? = some x → x.task = thread.task → x.claim ≠ some p)
    (decided : ∀ u task, s.tasks.get? u = some task → (f u task).status.terminal = true →
      Decided (ts.set d thread') u (f u task)) : Fenced s' (ts.set d thread') := by
  have before (u : TaskId) {task' : Task} (found : s'.tasks.get? u = some task') :
      ∃ task, s.tasks.get? u = some task ∧ f u task = task' := by
    rw [tasks] at found
    exact Option.map_eq_some_iff.mp found
  refine ⟨records, exclusive, ?_, ?_, ?_, ?_, ?_⟩
  · intro u task' found
    obtain ⟨task, known, rfl⟩ := before u found
    exact (attempts u task).trans_le (fenced.bounded u task known)
  · intro e x there
    rcases getElem?_set_cases here there with ⟨rfl, rfl⟩ | ⟨apart, there⟩
    · obtain ⟨task, known, sound⟩ := fenced.sound e thread here
      refine ⟨f thread.task task, ?_, mine task known sound⟩
      rw [same, tasks, known]
      rfl
    · obtain ⟨task, known, sound⟩ := fenced.sound e x there
      refine ⟨f x.task task, ?_, others e x task apart there known sound⟩
      rw [tasks, known]
      rfl
  · intro e e' x y p one two alike first second
    rcases getElem?_set_cases here one with ⟨rfl, rfl⟩ | ⟨apart, old⟩
    · rcases getElem?_set_cases here two with ⟨rfl, _⟩ | ⟨apart, old⟩
      · rfl
      · exact absurd second (claims p first e' y apart old (alike.symm.trans same))
    · rcases getElem?_set_cases here two with ⟨rfl, rfl⟩ | ⟨_, old'⟩
      · exact absurd first (claims p second e x apart old (alike.trans same))
      · exact fenced.alone e e' x y p old old' alike first second
  · intro u task' found ended
    obtain ⟨task, known, rfl⟩ := before u found
    exact decided u task known ended
  · intro u task' found
    obtain ⟨task, known, rfl⟩ := before u found
    rw [countP_set here same, fenced.counted u task known, attempts]

/-- A task that is not in flight fails; no worker has a part in it. -/
theorem exclusive_abandon {task : Task} (exclusive : s.Exclusive) (found : s.tasks.get? t = some task)
    (idle : task.status.inFlight = false) : (s.setTaskStatus t .failed).Exclusive := by
  refine exclusive.withdraw (fun _ => False) (fun u v => ?_) (fun _ known => known) (fun _ _ => rfl)
    (fun _ => False.elim)
  simp only [Scheduler.Holds, Scheduler.get?_setTaskStatus, not_false_eq_true, true_and]
  by_cases same : u = t
  · subst same
    simp only [found, if_true, Option.map_some, Option.some.injEq]
    constructor
    · rintro ⟨_, rfl, _, held⟩
      cases held
    · rintro ⟨_, rfl, _, held⟩
      exact absurd (held.symm.trans idle) Bool.false_ne_true.symm
  · simp only [same, if_false]

theorem records_stale (records : s.Records) (timeout now : Time) : (s.condemnStale timeout now).2.Records := by
  have requeues (ws : List WorkerId) {s : Scheduler} (records : s.Records) :
      (ws.foldl (fun acc w => (acc.requeueTasksForWorker w).2) s).Records := by
    induction ws generalizing s with
    | nil => exact records
    | cons w ws ih => exact ih (records.requeue w).records
  exact requeues _ (records.performed (.getStaleWorkers timeout now)).1.records

theorem records_condemned (records : s.Records) (w : WorkerId) : (s.condemned w).Records :=
  ((records.workers fun v known => (Scheduler.contains_setStatus s.workers w v .failed).trans known).records.requeue
    w).records

/-- What `setTaskStatus` does to the record of task `u`. -/
def restatus (t : TaskId) (status : TaskStatus) (u : TaskId) (task : Task) : Task :=
  if u = t then { task with status } else task

theorem get?_restatus (s : Scheduler) (t : TaskId) (status : TaskStatus) (u : TaskId) :
    (s.setTaskStatus t status).tasks.get? u = (s.tasks.get? u).map (restatus t status u) := by
  rw [Scheduler.get?_setTaskStatus]
  by_cases same : u = t
  · rw [if_pos same]
    exact Option.map_congr fun _ _ => (if_pos same).symm
  · rw [if_neg same]
    exact (Option.map_id' ..).symm.trans (Option.map_congr fun _ _ => (if_neg same).symm)

theorem attempt_restatus (t : TaskId) (status : TaskStatus) (u : TaskId) (task : Task) :
    (restatus t status u task).attempt = task.attempt := by
  unfold restatus
  split <;> rfl

theorem sound_restatus {task : Task} (status : TaskStatus) (sound : thread.Sound task)
    (late : thread.task = t → thread.claim ≠ some task.attempt) :
    thread.Sound (restatus t status thread.task task) := by
  unfold restatus
  split
  · rename_i same
    exact sound.past (Nat.le_refl _) (late same)
  · exact sound

theorem records_restatus {status : TaskStatus} (records : s.Records) (notPending : status ≠ .pending)
    (held : status.inFlight = true → ∀ task, s.tasks.get? t = some task → task.status.inFlight = true) :
    (s.setTaskStatus t status).Records := by
  intro u task' found
  rw [get?_restatus] at found
  obtain ⟨task, known, rfl⟩ := Option.map_eq_some_iff.mp found
  unfold restatus
  split
  · rename_i same
    exact (records u task known).setStatus notPending fun flying => held flying task (same ▸ known)
  · exact records u task known

theorem records_released (records : s.Records) (w : WorkerId) : (s.released w).Records := by
  unfold Scheduler.released
  split
  · exact records
  · exact (records.workers fun v known => (Scheduler.contains_setStatus s.workers w v .idle).trans known).records

/-- The thread that has claimed the current attempt ends the task, whatever the workers. -/
theorem Fenced.settle {task : Task} {status : TaskStatus} {response : Message} (fenced : Fenced s ts)
    (here : ts[d]? = some thread) (unfinished : thread.finished = false)
    (found : s.tasks.get? thread.task = some task) (mine : thread.claim = some task.attempt)
    (ended : status.terminal = true)
    (agrees : status = .completed ↔ response.isSuccess = true) (records : s'.Records) (exclusive : s'.Exclusive)
    (tasks : s'.tasks = (s.setTaskStatus thread.task status).tasks) :
    Fenced s' (ts.set d { thread with pc := .returned response }) := by
  refine fenced.turn here records exclusive rfl (fun u => by rw [tasks, get?_restatus])
    (attempt_restatus thread.task status) ?_ ?_ ?_ ?_
  · intro e x task' apart there known sound
    refine sound_restatus status sound fun same => ?_
    obtain rfl : task = task' := Option.some.inj (found.symm.trans (same ▸ known))
    exact fenced.others here mine there apart same
  · intro task' known sound
    refine (sound.ends rfl rfl).mono (Nat.le_of_eq (attempt_restatus ..).symm) fun _ =>
      ⟨?_, fun works => absurd rfl works⟩
    rw [restatus, if_pos rfl]
    rintro assigned
    obtain rfl : status = .assigned := assigned
    cases ended
  · intro p claimed e x apart there same
    exact fenced.others here claimed there apart same
  · intro u task' known finished
    unfold restatus at finished ⊢
    split at finished
    · rename_i same
      subst same
      obtain rfl := Option.some.inj (found.symm.trans known)
      rw [if_pos rfl]
      refine .inr ⟨d, response, ?_, agrees⟩
      rw [List.getElem?_set_self (List.getElem?_eq_some_iff.mp here).1, ← mine]
    · rename_i other
      rw [if_neg other]
      exact (fenced.decided u task' known finished).set here unfinished _

theorem Fenced.progress (fenced : Fenced s ts) (here : ts[d]? = some thread)
    (progress : Progress s thread s' thread') : Fenced s' (ts.set d thread') := by
  have unfinished := progress.unfinished
  -- what a step leaves as it is
  have unchanged (u : TaskId) : s.tasks.get? u = (s.tasks.get? u).map id := (Option.map_id' ..).symm
  have kept (u : TaskId) (task : Task) (found : s.tasks.get? u = some task) (ended : task.status.terminal = true) :
      Decided (ts.set d thread') u task := (fenced.decided u task found ended).set here unfinished thread'
  have claims (p : Nat) (mine : thread.claim = some p) (e : ThreadId) (x : DispatchThread) (apart : e ≠ d)
      (there : ts[e]? = some x) (same : x.task = thread.task) : x.claim ≠ some p :=
    fenced.others here mine there apart same
  cases progress with
  | @begins pc from' to' read =>
    refine fenced.turn here fenced.records fenced.exclusive rfl unchanged (fun _ _ => rfl)
      (fun _ _ _ _ _ _ sound => sound) (fun task found sound => ?_) claims kept
    refine ⟨fun _ => sound.fresh from', fun locals captured => ?_, sound.claimed, fun locals works => ?_⟩
    · obtain ⟨task', found', attempt⟩ := read locals captured
      obtain rfl := Option.some.inj (found.symm.trans found')
      exact Nat.le_of_eq attempt
    · cases pc <;> simp_all [ThreadPc.begins, ThreadPc.working?]
  | @works pc locals from' to' =>
    refine fenced.turn here fenced.records fenced.exclusive rfl unchanged (fun _ _ => rfl)
      (fun _ _ _ _ _ _ sound => sound) (fun task found sound => ?_) claims kept
    refine ⟨fun begins => ?_, fun locals captured => ?_, sound.claimed, fun locals' works => ?_⟩
    · cases pc <;> simp_all [ThreadPc.begins, ThreadPc.working?]
    · simp_all [ThreadPc.working?]
    · obtain rfl := Option.some.inj (to'.symm.trans works)
      exact sound.working locals from'
  | @ends pc _ notBegins notWorks =>
    refine fenced.turn here fenced.records fenced.exclusive rfl unchanged (fun _ _ => rfl)
      (fun _ _ _ _ _ _ sound => sound) (fun task found sound => ?_) claims kept
    exact sound.ends notBegins notWorks
  | @starts task locals pc found assigned =>
    -- nobody has claimed an attempt that is still ASSIGNED
    have unclaimed (e : ThreadId) (x : DispatchThread) (there : ts[e]? = some x) (same : x.task = thread.task) :
        x.claim ≠ some task.attempt := by
      intro claimed
      obtain ⟨task', found', sound⟩ := fenced.sound e x there
      rw [same, found] at found'
      obtain rfl := Option.some.inj found'
      exact (sound.claimed _ claimed).begun rfl assigned
    have first := ((fenced.records _ task found).held (by rw [assigned]; rfl)).2.1
    refine fenced.turn here (records_restatus fenced.records (by decide) fun _ task' known => ?_)
      (fenced.exclusive.start found assigned) rfl (get?_restatus s thread.task .running)
      (attempt_restatus _ _) ?_ ?_ ?_ ?_
    · obtain rfl := Option.some.inj (found.symm.trans known)
      rw [assigned]
      rfl
    · intro e x task' apart there known sound
      refine sound_restatus .running sound fun same => ?_
      obtain rfl : task = task' := Option.some.inj (found.symm.trans (same ▸ known))
      exact unclaimed e x there same
    · intro task' known sound
      obtain rfl := Option.some.inj (found.symm.trans known)
      rw [restatus, if_pos rfl]
      refine ⟨fun begins => absurd begins Bool.false_ne_true, fun _ captured => ThreadPc.noConfusion captured,
        fun p claimed => ?_, fun locals' works => ⟨task.attempt, rfl, ?_, fun _ => .inr rfl⟩⟩
      · obtain rfl : task.attempt = p := Option.some.inj claimed
        exact ⟨first, Nat.le_refl _, fun _ => TaskStatus.noConfusion⟩
      · obtain rfl : locals = locals' := Option.some.inj works
        exact sound.early locals pc
    · intro p claimed e x _ there same
      obtain rfl : task.attempt = p := Option.some.inj claimed
      exact unclaimed e x there same
    · intro u task' known ended
      unfold restatus at ended ⊢
      split at ended
      · cases ended
      · rename_i other
        rw [if_neg other]
        exact kept u task' known ended
  | @finishes task w response _ found running owner mine =>
    have held : s.Holds thread.task w := ⟨task, found, owner, by rw [running]; rfl⟩
    have ended : (if response.isSuccess then TaskStatus.completed else .failed).terminal = true := by
      split <;> rfl
    refine fenced.settle here unfinished found mine ended (by split <;> simp_all)
      (records_released (records_restatus fenced.records (by split <;> decide) fun flying => ?_) w)
      (fenced.exclusive.finish held ended) (Scheduler.released_tasks ..)
    split at flying <;> cases flying
  | abandons _ found idle owner mine bad =>
    exact fenced.settle here unfinished found mine rfl (by simp [bad])
      (records_restatus fenced.records (by decide) fun flying => by cases flying)
      (exclusive_abandon fenced.exclusive found idle) rfl
  | @condemns task w response _ found running owner =>
    exact fenced.turn here (records_condemned fenced.records w) (fenced.exclusive.condemn w) rfl
      (Scheduler.get?_condemned s w) (fun _ task => attempt_takenBack task)
      (fun _ _ _ _ _ _ sound => sound.takenBack)
      (fun _ _ sound => DispatchThread.Sound.takenBack (sound.ends rfl rfl)) claims
      (fun u task known => decided_takenBack (fenced.bounded u task known) (kept u task known))

/-- A task is submitted. -/
theorem Fenced.submit {taskType : String} {payload : List (Key × Val)} (fenced : Fenced s ts)
    (absent : s.tasks.get? t = none) :
    Fenced { s with tasks := s.tasks.insert t ⟨taskType, payload, .pending, none, 0⟩ } ts := by
  have split_at {u : TaskId} {task : Task}
      (found : (s.tasks.insert t ⟨taskType, payload, .pending, none, 0⟩).get? u = some task) :
      (u = t ∧ task = ⟨taskType, payload, .pending, none, 0⟩) ∨ s.tasks.get? u = some task := by
    rw [Dict.get?_insert] at found
    split at found
    · exact .inl ⟨‹_›, (Option.some.inj found).symm⟩
    · exact .inr found
  refine ⟨(fenced.records.submit absent).records, fenced.exclusive.submit absent rfl, ?_, ?_, fenced.alone, ?_,
    ?_⟩
  · intro u task found
    rcases split_at found with ⟨_, rfl⟩ | old
    · exact Nat.zero_le _
    · exact fenced.bounded u task old
  · intro d thread there
    obtain ⟨task, found, sound⟩ := fenced.sound d thread there
    refine ⟨task, ?_, sound⟩
    rw [Dict.get?_insert, if_neg, found]
    rintro same
    rw [same, absent] at found
    cases found
  · intro u task found ended
    rcases split_at found with ⟨_, rfl⟩ | old
    · cases ended
    · exact fenced.decided u task old ended
  · intro u task found
    rcases split_at found with ⟨rfl, rfl⟩ | old
    · refine List.countP_eq_zero.mpr fun thread member mine => ?_
      obtain ⟨d, there⟩ := List.mem_iff_getElem?.mp member
      obtain ⟨task, known, _⟩ := fenced.sound d thread there
      rw [of_decide_eq_true mine, absent] at known
      cases known
    · exact fenced.counted u task old

/-- The failure monitor takes the tasks of stale workers back. -/
theorem Fenced.stale (fenced : Fenced s ts) (timeout now : Time) : Fenced (s.condemnStale timeout now).2 ts := by
  have before {u : TaskId} {task' : Task} (found : (s.condemnStale timeout now).2.tasks.get? u = some task') := by
    rw [Scheduler.get?_condemnStale] at found
    exact Option.map_eq_some_iff.mp found
  refine ⟨records_stale fenced.records timeout now, fenced.exclusive.stale timeout now, ?_, ?_, fenced.alone, ?_,
    ?_⟩
  · intro u task' found
    obtain ⟨task, known, rfl⟩ := before found
    exact (attempt_takenBack task).trans_le (fenced.bounded u task known)
  · intro d thread there
    obtain ⟨task, known, sound⟩ := fenced.sound d thread there
    refine ⟨_, (Scheduler.get?_condemnStale ..).trans (congrArg (Option.map _) known), ?_⟩
    exact sound.takenBack
  · intro u task' found ended
    obtain ⟨task, known, rfl⟩ := before found
    exact decided_takenBack (fenced.bounded u task known) (fenced.decided u task known) ended
  · intro u task' found
    obtain ⟨task, known, rfl⟩ := before found
    exact (fenced.counted u task known).trans (attempt_takenBack task).symm

/-- A task is assigned, and a thread starts on it. -/
theorem Fenced.assign (fenced : Fenced s ts) (grants : s.Grants t s') :
    Fenced s' (ts ++ [.start t]) := by
  obtain ⟨w, task, worker, found, pending, known, idle, rfl⟩ := id grants
  have split_at {u : TaskId} {task' : Task} (there : (s.grant t w).tasks.get? u = some task') :
      (u = t ∧
        task' = { task with attempt := task.attempt + 1, assignedWorkerId := some w, status := .assigned }) ∨
        (u ≠ t ∧ s.tasks.get? u = some task') := by
    rw [Scheduler.get?_grant] at there
    split at there
    · rename_i same
      subst same
      rw [found] at there
      exact .inl ⟨rfl, (Option.some.inj there).symm⟩
    · exact .inr ⟨‹_›, there⟩
  have at_append (e : ThreadId) {x : DispatchThread} (there : (ts ++ [.start t])[e]? = some x) :
      ts[e]? = some x ∨ x = .start t := by
    rcases Nat.lt_or_ge e ts.length with old | new
    · exact .inl (List.getElem?_append_left old ▸ there)
    · rw [List.getElem?_append_right new] at there
      exact .inr (List.mem_singleton.mp (List.mem_of_getElem? there))
  have claimed (e : ThreadId) {x : DispatchThread} {p : Nat} (there : (ts ++ [.start t])[e]? = some x)
      (mine : x.claim = some p) : ts[e]? = some x := by
    rcases at_append e there with old | rfl
    · exact old
    · cases mine
  refine ⟨(fenced.records.grants grants).records, fenced.exclusive.grant found pending known idle, ?_, ?_, ?_, ?_,
    ?_⟩
  · intro u task' there
    rcases split_at there with ⟨_, rfl⟩ | ⟨_, old⟩
    · exact ((fenced.records t task found).pending pending).2
    · exact fenced.bounded u task' old
  · intro e x there
    rcases at_append e there with old | rfl
    · obtain ⟨task', before, sound⟩ := fenced.sound e x old
      by_cases same : x.task = t
      · obtain rfl := Option.some.inj (found.symm.trans (same ▸ before))
        refine ⟨_, (Scheduler.get?_grant ..).trans ((if_pos same).trans (congrArg (Option.map _) before)), ?_⟩
        refine sound.past (Nat.le_succ _) fun ahead => ?_
        exact Nat.not_succ_le_self _ (sound.claimed _ ahead).made
      · exact ⟨task', (Scheduler.get?_grant ..).trans ((if_neg same).trans before), sound⟩
    · exact ⟨_, (Scheduler.get?_grant ..).trans ((if_pos rfl).trans (congrArg (Option.map _) found)),
        DispatchThread.sound_start t _⟩
  · intro e e' x y p one two same first second
    exact fenced.alone e e' x y p (claimed e one first) (claimed e' two second) same first second
  · intro u task' there ended
    rcases split_at there with ⟨_, rfl⟩ | ⟨_, old⟩
    · cases ended
    · exact (fenced.decided u task' old ended).append _
  · intro u task' there
    rw [List.countP_append, List.countP_singleton]
    rcases split_at there with ⟨rfl, rfl⟩ | ⟨other, old⟩
    · rw [fenced.counted u task found]
      exact congrArg (task.attempt + ·) (if_pos (decide_eq_true rfl))
    · rw [fenced.counted u task' old]
      exact congrArg (task'.attempt + ·) (if_neg fun same => other (of_decide_eq_true same).symm)

theorem Fenced.change {l l' : Ledger} (fenced : Fenced l.1 l.2) (change : Change l l') : Fenced l'.1 l'.2 := by
  cases change with
  | request handled =>
    exact ⟨(fenced.records.workers handled.workers_kept).records, fenced.exclusive.request handled, fenced.bounded,
      fenced.sound, fenced.alone, fenced.decided, fenced.counted⟩
  | submit absent => exact fenced.submit absent
  | stale timeout now => exact fenced.stale timeout now
  | assign grants => exact fenced.assign grants
  | turn here progress => exact fenced.progress here progress

end Ledger

end DistributedCompute
