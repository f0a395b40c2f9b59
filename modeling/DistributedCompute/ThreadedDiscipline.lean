import DistributedCompute.ThreadedRuns

/-! Runs of the threaded master in which one caller dispatches at a time, as `main` does:
workers are accepted, and a drain or `submit_and_dispatch_task` is called, while nothing is
being dispatched and every known worker has its connection; the heartbeat port registers no
workers. The monitor, heartbeats, lost connections and submissions come at any time. In
such a run nothing that `dispatch_assigned_task` reads is torn. -/
namespace DistributedCompute
open Py Relation Transition

/-! ### What a thread has read -/

namespace ThreadPc

def conn? : ThreadPc → Option ConnId
  | .looked c | .owned c _ => some c
  | .captured locals | .sending locals | .receiving locals | .answered locals _ | .unreachable locals _ =>
    some locals.conn
  | .entered | .returned _ | .overflowed _ | .raised => none

def worker? : ThreadPc → Option (Option WorkerId)
  | .owned _ w => some w
  | .captured locals | .sending locals | .receiving locals | .answered locals _ | .unreachable locals _ =>
    some locals.workerId
  | .entered | .looked _ | .returned _ | .overflowed _ | .raised => none

def attempt? : ThreadPc → Option Nat
  | .captured locals | .sending locals | .receiving locals | .answered locals _ | .unreachable locals _ =>
    some locals.attempt
  | .entered | .looked _ | .owned _ _ | .returned _ | .overflowed _ | .raised => none

/-- What the thread has read so far belongs to one assignment, to worker `w`. -/
structure Read (connections : Dict WorkerId ConnId) (w : WorkerId) (attempt : Nat) (pc : ThreadPc) : Prop where
  conn : ∀ c, pc.conn? = some c → connections.get? w = some c
  worker : ∀ v, pc.worker? = some v → v = some w
  attempt : ∀ n, pc.attempt? = some n → n = attempt

variable {connections : Dict WorkerId ConnId} {w : WorkerId} {attempt : Nat} {pc pc' : ThreadPc} {locals : Capture}

theorem Read.congr (read : pc.Read connections w attempt) (works : pc.working? = some locals)
    (works' : pc'.working? = some locals) : pc'.Read connections w attempt := by
  have alike : pc'.conn? = pc.conn? ∧ pc'.worker? = pc.worker? ∧ pc'.attempt? = pc.attempt? := by
    cases pc <;> cases works <;> cases pc' <;> cases works' <;> exact ⟨rfl, rfl, rfl⟩
  obtain ⟨conn, worker, number⟩ := alike
  exact ⟨fun c got => read.conn c (conn ▸ got), fun v got => read.worker v (worker ▸ got),
    fun n got => read.attempt n (number ▸ got)⟩

theorem Read.captured (read : pc.Read connections w attempt) (works : pc.working? = some locals) :
    connections.get? w = some locals.conn ∧ locals.workerId = some w ∧ locals.attempt = attempt := by
  cases pc <;> cases works <;> exact ⟨read.conn _ rfl, read.worker _ rfl, read.attempt _ rfl⟩

theorem begins_of_working (works : pc.working? = some locals) : pc.begins = false := by
  cases pc <;> cases works <;> rfl

end ThreadPc

namespace DispatchThread
variable {connections : Dict WorkerId ConnId} {task : Task} {thread : DispatchThread}

/-- A thread that has not ended: its task is still its own, or has been taken back and
nobody else was given it. -/
inductive Standing (connections : Dict WorkerId ConnId) (task : Task) (thread : DispatchThread) : Prop
  | held {w : WorkerId} : task.assignedWorkerId = some w →
      task.status = (if thread.pc.begins then .assigned else .running) →
      thread.pc.Read connections w task.attempt → Standing connections task thread
  | lapsed : task.status.inFlight = false → task.assignedWorkerId = none →
      (thread.pc.begins = false → ∃ w, thread.pc.Read connections w task.attempt) →
      Standing connections task thread

theorem Standing.read (standing : thread.Standing connections task) (notBegins : thread.pc.begins = false) :
    ∃ w, thread.pc.Read connections w task.attempt := by
  cases standing with
  | @held w _ _ read => exact ⟨w, read⟩
  | lapsed _ _ read => exact read notBegins

theorem Standing.takenBack (standing : thread.Standing connections task) :
    thread.Standing connections task.takenBack :=
  .lapsed (Scheduler.takenBack_inFlight task) rfl standing.read

variable {locals : Capture}

theorem Standing.works {pc : ThreadPc} (standing : thread.Standing connections task)
    (works : thread.pc.working? = some locals) (works' : pc.working? = some locals) :
    Standing connections task { thread with pc } := by
  have before := ThreadPc.begins_of_working works
  have after := ThreadPc.begins_of_working works'
  cases standing with
  | held owner status read =>
    rw [before] at status
    exact .held owner (by rw [after]; exact status) (read.congr works works')
  | lapsed idle free read =>
    refine .lapsed idle free fun _ => ?_
    obtain ⟨w, read⟩ := read before
    exact ⟨w, read.congr works works'⟩

/-- The worker that a thread is going to send its task to. -/
def lessee (s : Scheduler) (thread : DispatchThread) : Option WorkerId :=
  match thread.pc.working? with
  | some locals => locals.workerId
  | none =>
    if thread.pc.begins then
      (s.tasks.get? thread.task).bind (fun task => if task.status = .assigned then task.assignedWorkerId else none)
    else none

theorem lessee_working (works : thread.pc.working? = some locals) (s : Scheduler) :
    thread.lessee s = locals.workerId := by
  rw [lessee, works]

theorem lessee_begins (begins : thread.pc.begins = true) {s : Scheduler}
    (found : s.tasks.get? thread.task = some task) :
    thread.lessee s = if task.status = .assigned then task.assignedWorkerId else none := by
  have notWorking : thread.pc.working? = none := by
    cases h : thread.pc <;> simp_all [ThreadPc.begins, ThreadPc.working?]
  rw [lessee, notWorking, begins, if_pos rfl, found]
  rfl

theorem lessee_finished (finished : thread.finished = true) (s : Scheduler) : thread.lessee s = none := by
  cases h : thread.pc <;> simp_all [DispatchThread.finished, lessee, ThreadPc.working?, ThreadPc.begins]

end DispatchThread

/-! ### All threads -/

namespace Ledger
variable {s s' : Scheduler} {connections : Dict WorkerId ConnId} {ts : List DispatchThread} {d : ThreadId}
  {thread thread' : DispatchThread}

structure Leased (s : Scheduler) (connections : Dict WorkerId ConnId) (ts : List DispatchThread) : Prop where
  standing : ∀ (d : ThreadId) (thread : DispatchThread), ts[d]? = some thread → thread.finished = false →
    ∃ task, s.tasks.get? thread.task = some task ∧ thread.Standing connections task
  singles : ∀ (d e : ThreadId) (x y : DispatchThread), ts[d]? = some x → ts[e]? = some y → x.finished = false →
    y.finished = false → x.task = y.task → d = e
  apart : ∀ (d e : ThreadId) (x y : DispatchThread) (w : WorkerId), ts[d]? = some x → ts[e]? = some y →
    x.lessee s = some w → y.lessee s = some w → d = e

variable {w : WorkerId} {task' : Task} {t : TaskId}

theorem unfinished_of_lessee (lessee : thread.lessee s = some w) : thread.finished = false := by
  by_contra finished
  rw [thread.lessee_finished (by simpa using finished)] at lessee
  cases lessee

theorem leased_of_finished (finished : ∀ thread ∈ ts, thread.finished = true) : Leased s connections ts where
  standing := fun _ thread here unfinished =>
    absurd (unfinished.symm.trans (finished thread (List.mem_of_getElem? here))) Bool.false_ne_true
  singles := fun _ _ x _ here _ unfinished =>
    absurd (unfinished.symm.trans (finished x (List.mem_of_getElem? here))) Bool.false_ne_true
  apart := fun _ _ x _ _ here _ lessee =>
    absurd ((unfinished_of_lessee lessee).symm.trans (finished x (List.mem_of_getElem? here))) Bool.false_ne_true

/-- The record is as before, or the task has been taken back. -/
def TakesBack (task task' : Task) : Prop := task' = task ∨ task' = task.takenBack

theorem takesBack_ite (held : Prop) [Decidable held] (task : Task) :
    TakesBack task (if held then task.takenBack else task) := by
  by_cases taken : held
  · exact .inr (if_pos taken)
  · exact .inl (if_neg taken)

variable {task : Task} {scope : Option (List TaskId)} {batch : List TaskId}

theorem TakesBack.standing (takes : TakesBack task task') (standing : thread.Standing connections task) :
    thread.Standing connections task' := by
  rcases takes with rfl | rfl
  · exact standing
  · exact standing.takenBack

/-- What is taken back from a worker is not given to another. -/
theorem TakesBack.lessee (takes : TakesBack task task') (found : s.tasks.get? thread.task = some task)
    (found' : s'.tasks.get? thread.task = some task') (lessee : thread.lessee s' = some w) :
    thread.lessee s = some w := by
  cases works : thread.pc.working? with
  | some locals => rwa [thread.lessee_working works] at lessee ⊢
  | none =>
    cases begins : thread.pc.begins with
    | false => simp [DispatchThread.lessee, works, begins] at lessee
    | true =>
      rw [DispatchThread.lessee_begins begins found'] at lessee
      rw [DispatchThread.lessee_begins begins found]
      rcases takes with rfl | rfl
      · exact lessee
      · split at lessee <;> cases lessee

/-- Records change, and threads do not. -/
theorem Leased.records (leased : Leased s connections ts)
    (kept : ∀ u task, s.tasks.get? u = some task → ∃ task', s'.tasks.get? u = some task' ∧ TakesBack task task') :
    Leased s' connections ts := by
  refine ⟨fun d thread here unfinished => ?_, leased.singles, fun d e x y w here there mine also => ?_⟩
  · obtain ⟨task, found, standing⟩ := leased.standing d thread here unfinished
    obtain ⟨task', found', takes⟩ := kept _ task found
    exact ⟨task', found', takes.standing standing⟩
  · have before {d : ThreadId} {x : DispatchThread} (here : ts[d]? = some x) (mine : x.lessee s' = some w) :
        x.lessee s = some w := by
      obtain ⟨task, found, _⟩ := leased.standing d x here (unfinished_of_lessee mine)
      obtain ⟨task', found', takes⟩ := kept _ task found
      exact takes.lessee found found' mine
    exact leased.apart d e x y w here there (before here mine) (before there also)

/-- One thread takes a step; the tasks of the others may be taken back. -/
theorem Leased.turn (leased : Leased s connections ts) (here : ts[d]? = some thread)
    (unfinished : thread.finished = false) (same : thread'.task = thread.task)
    (others : ∀ u task, u ≠ thread.task → s.tasks.get? u = some task →
      ∃ task', s'.tasks.get? u = some task' ∧ TakesBack task task')
    (mine : thread'.finished = false → ∃ task', s'.tasks.get? thread.task = some task' ∧
      thread'.Standing connections task')
    (lessee : ∀ w, thread'.lessee s' = some w → thread.lessee s = some w) :
    Leased s' connections (ts.set d thread') := by
  have other {e : ThreadId} {x : DispatchThread} (apart : e ≠ d) (there : ts[e]? = some x)
      (ongoing : x.finished = false) : x.task ≠ thread.task :=
    fun alike => apart (leased.singles e d x thread there here ongoing unfinished alike)
  have before {e : ThreadId} {x : DispatchThread} {w : WorkerId} (there : (ts.set d thread')[e]? = some x)
      (leases : x.lessee s' = some w) : ∃ y, ts[e]? = some y ∧ y.lessee s = some w := by
    rcases getElem?_set_cases here there with ⟨rfl, rfl⟩ | ⟨apart, old⟩
    · exact ⟨thread, here, lessee w leases⟩
    · have ongoing := unfinished_of_lessee leases
      obtain ⟨task, found, _⟩ := leased.standing e x old ongoing
      obtain ⟨task', found', takes⟩ := others _ task (other apart old ongoing) found
      exact ⟨x, old, takes.lessee found found' leases⟩
  refine ⟨fun e x there ongoing => ?_, fun e e' x y one two first second alike => ?_,
    fun e e' x y w one two first second => ?_⟩
  · rcases getElem?_set_cases here there with ⟨rfl, rfl⟩ | ⟨apart, old⟩
    · rw [same]
      exact mine ongoing
    · obtain ⟨task, found, standing⟩ := leased.standing e x old ongoing
      obtain ⟨task', found', takes⟩ := others _ task (other apart old ongoing) found
      exact ⟨task', found', takes.standing standing⟩
  · rcases getElem?_set_cases here one with ⟨rfl, rfl⟩ | ⟨apart, old⟩
    · rcases getElem?_set_cases here two with ⟨rfl, _⟩ | ⟨apart, old⟩
      · rfl
      · exact absurd (alike.symm.trans same) (other apart old second)
    · rcases getElem?_set_cases here two with ⟨rfl, rfl⟩ | ⟨_, old'⟩
      · exact absurd (alike.trans same) (other apart old first)
      · exact leased.singles e e' x y old old' first second alike
  · obtain ⟨x', one', first'⟩ := before one first
    obtain ⟨y', two', second'⟩ := before two second
    exact leased.apart e e' x' y' w one' two' first' second'

/-- A thread takes a step; the tasks of the others stay as they are or are taken back. -/
theorem takesBack_of_progress (progress : Progress s thread s' thread') {u : TaskId} (other : u ≠ thread.task)
    (found : s.tasks.get? u = some task) :
    ∃ task', s'.tasks.get? u = some task' ∧ TakesBack task task' := by
  cases progress with
  | begins _ _ _ | works _ _ | ends _ _ _ => exact ⟨task, found, .inl rfl⟩
  | starts _ _ _ | abandons _ _ _ _ _ _ =>
    exact ⟨task, (Scheduler.get?_setTaskStatus ..).trans ((if_neg other).trans found), .inl rfl⟩
  | finishes _ _ _ _ _ =>
    refine ⟨task, ?_, .inl rfl⟩
    rw [Scheduler.released_tasks, Scheduler.get?_setTaskStatus, if_neg other, found]
  | condemns _ _ _ _ =>
    exact ⟨_, (Scheduler.get?_condemned ..).trans (congrArg (Option.map _) found), takesBack_ite _ task⟩

/-- What a batch makes of its tasks. -/
theorem granted_of_batch (made : Scheduler.Batch scope s batch s') (member : t ∈ batch) :
    ∃ task w, s.tasks.get? t = some task ∧ s'.tasks.get? t =
      some { task with attempt := task.attempt + 1, assignedWorkerId := some w, status := .assigned } := by
  induction made with
  | nil => cases member
  | @cons s mid s' u rest grants within later ih =>
    have once := (Scheduler.Batch.cons grants within later).nodup
    obtain ⟨w, task, worker, found, _, _, _, rfl⟩ := grants
    rcases List.mem_cons.mp member with rfl | after
    · refine ⟨task, w, found, ?_⟩
      rw [later.others (List.nodup_cons.mp once).1, Scheduler.get?_grant, if_pos rfl, found]
      rfl
    · obtain ⟨task, v, found, granted⟩ := ih after
      have apart : t ≠ u := by
        rintro rfl
        exact (List.nodup_cons.mp once).1 after
      rw [Scheduler.get?_grant, if_neg apart] at found
      exact ⟨task, v, found, granted⟩

/-- The tasks of a batch are ASSIGNED when it has been made. -/
theorem assigned_of_batch (made : Scheduler.Batch scope s batch s') (member : t ∈ batch) :
    ∃ task w, s'.tasks.get? t = some task ∧ task.status = .assigned ∧ task.assignedWorkerId = some w := by
  obtain ⟨task, w, _, granted⟩ := granted_of_batch made member
  exact ⟨_, w, granted, rfl, rfl⟩

/-- A batch is assigned and gets its threads while no other thread runs. -/
theorem leased_of_batch (finished : ∀ thread ∈ ts, thread.finished = true) (exclusive : s'.Exclusive)
    (made : Scheduler.Batch scope s batch s') : Leased s' connections (ts ++ batch.map .start) := by
  have fresh {d : Nat} {x : DispatchThread} (there : (ts ++ batch.map .start)[d]? = some x)
      (ongoing : x.finished = false) : ∃ t, x = .start t ∧ batch[d - ts.length]? = some t ∧ ts.length ≤ d := by
    rcases Nat.lt_or_ge d ts.length with old | new
    · rw [List.getElem?_append_left old] at there
      exact absurd (ongoing.symm.trans (finished x (List.mem_of_getElem? there))) Bool.false_ne_true
    · rw [List.getElem?_append_right new, List.getElem?_map] at there
      obtain ⟨t, at_batch, rfl⟩ := Option.map_eq_some_iff.mp there
      exact ⟨t, rfl, at_batch, new⟩
  -- a task is in the batch once
  have alike {d e : Nat} {x y : DispatchThread} (here : (ts ++ batch.map .start)[d]? = some x)
      (there : (ts ++ batch.map .start)[e]? = some y) (one : x.finished = false) (two : y.finished = false)
      (same : x.task = y.task) : d = e := by
    obtain ⟨t, rfl, first, low⟩ := fresh here one
    obtain ⟨u, rfl, second, high⟩ := fresh there two
    obtain rfl : t = u := same
    have bound := (List.getElem?_eq_some_iff.mp first).1
    have := (List.getElem?_inj bound made.nodup).mp (first.trans second.symm)
    omega
  refine ⟨fun d x there ongoing => ?_, fun d e x y here there one two same => alike here there one two same,
    fun d e x y w here there mine also => ?_⟩
  · obtain ⟨t, rfl, at_batch, _⟩ := fresh there ongoing
    obtain ⟨task, w, found, assigned, owner⟩ := assigned_of_batch made (List.mem_of_getElem? at_batch)
    exact ⟨task, found, .held owner assigned ⟨fun _ none => absurd none (Option.some_ne_none _).symm,
      fun _ none => absurd none (Option.some_ne_none _).symm,
      fun _ none => absurd none (Option.some_ne_none _).symm⟩⟩
  · have holds {d : ThreadId} {x : DispatchThread} (there : (ts ++ batch.map .start)[d]? = some x)
        (leases : x.lessee s' = some w) : s'.Holds x.task w := by
      obtain ⟨t, rfl, at_batch, _⟩ := fresh there (unfinished_of_lessee leases)
      obtain ⟨task, v, found, assigned, owner⟩ := assigned_of_batch made (List.mem_of_getElem? at_batch)
      rw [DispatchThread.lessee_begins rfl found, if_pos assigned] at leases
      exact ⟨task, found, leases, by rw [assigned]; rfl⟩
    exact alike here there (unfinished_of_lessee mine) (unfinished_of_lessee also)
      (exclusive.unique _ _ w (holds here mine) (holds there also))

end Ledger

/-! ### One caller at a time -/

/-- The call has not returned. -/
def ThreadedDrain.active (drain : ThreadedDrain) : Bool :=
  match drain.pc with
  | .returned => false
  | .looping | .joining _ => true

theorem ThreadedDrain.returned_of_inactive {drain : ThreadedDrain} (inactive : (!drain.active) = true) :
    drain.pc = .returned := by
  cases pc : drain.pc with
  | returned => rfl
  | looping | joining _ => simp [ThreadedDrain.active, pc] at inactive

namespace ThreadedMaster
variable {floatRepr : BitVec 64 → String} {m m' : ThreadedMaster} {d : ThreadId} {thread : DispatchThread}
  {a : ThreadedAction}

def dispatching (m : ThreadedMaster) : Bool :=
  m.drains.any ThreadedDrain.active || m.threads.any (fun thread => !thread.finished)

/-- Every worker that is known has a connection. -/
def connected (m : ThreadedMaster) : Bool := m.workers.keys.all (fun w => (m.connections.get? w).isSome)

def orderly (m : ThreadedMaster) : ThreadedAction → Bool
  | .callDrain | .submitAndDispatchTask _ _ _ => !m.dispatching && m.connected
  | .serve _ _ _ | .enlist _ => !m.dispatching
  | .request message _ => message.type ≠ .register
  | _ => true

def mainStep (m : ThreadedMaster) (a : ThreadedAction) : Prop := m.orderly a = true

instance (m : ThreadedMaster) (a : ThreadedAction) : Decidable (mainStep m a) :=
  inferInstanceAs (Decidable (m.orderly a = true))

structure Orderly (m : ThreadedMaster) : Prop where
  single : ∀ (i j : Nat) (x y : ThreadedDrain), m.drains[i]? = some x → m.drains[j]? = some y → x.active = true →
    y.active = true → i = j
  looping : ∀ (i : Nat) (x : ThreadedDrain), m.drains[i]? = some x → x.pc = .looping →
    ∀ thread ∈ m.threads, thread.finished = true
  joining : ∀ (i : Nat) (x : ThreadedDrain) (batch : List ThreadId), m.drains[i]? = some x → x.pc = .joining batch →
    ∀ (d : ThreadId) (thread : DispatchThread), m.threads[d]? = some thread → thread.finished = false → d ∈ batch
  known : m.dispatching = true → ∀ w, m.workers.contains w = true → (m.connections.get? w).isSome = true
  leased : Ledger.Leased m.scheduler m.connections m.threads

theorem idle_of_not_dispatching (idle : m.dispatching = false) :
    (∀ drain ∈ m.drains, drain.active = false) ∧ ∀ thread ∈ m.threads, thread.finished = true := by
  simpa [dispatching] using idle

theorem dispatching_of_thread (here : m.threads[d]? = some thread) (unfinished : thread.finished = false) :
    m.dispatching = true := by
  refine Bool.or_eq_true_iff.mpr (.inr (List.any_eq_true.mpr ⟨thread, List.mem_of_getElem? here, ?_⟩))
  rw [unfinished]
  rfl

/-- Steps that leave the threads, the drains and the connections alone. -/
theorem Orderly.frame (orderly : m.Orderly) (threads : m'.threads = m.threads) (drains : m'.drains = m.drains)
    (connections : m'.connections = m.connections)
    (fewer : ∀ w, m'.workers.contains w = true → m.workers.contains w = true)
    (kept : ∀ u task, m.tasks.get? u = some task → ∃ task', m'.tasks.get? u = some task' ∧
      Ledger.TakesBack task task') : m'.Orderly := by
  have same : m'.dispatching = m.dispatching := by simp only [dispatching, threads, drains]
  refine ⟨drains ▸ orderly.single, ?_, ?_, ?_, ?_⟩
  · rw [threads, drains]
    exact orderly.looping
  · rw [threads, drains]
    exact orderly.joining
  · rw [same, connections]
    exact fun busy w there => orderly.known busy w (fewer w there)
  · rw [threads, connections]
    exact orderly.leased.records kept

/-- Steps that are taken while nothing is dispatched, and dispatch nothing. -/
theorem orderly_of_idle (idle : m.dispatching = false) (threads : m'.threads = m.threads)
    (drains : m'.drains = m.drains) : m'.Orderly := by
  obtain ⟨returned, finished⟩ := idle_of_not_dispatching idle
  have inactive {i : Nat} {x : ThreadedDrain} (there : m'.drains[i]? = some x) : x.active = false :=
    returned x (drains ▸ List.mem_of_getElem? there)
  have same : m'.dispatching = m.dispatching := by simp only [dispatching, threads, drains]
  refine ⟨fun i _ x _ there _ active => ?_, fun i x there pc => ?_, fun i x batch there pc => ?_, fun busy => ?_,
    Ledger.leased_of_finished (threads ▸ finished)⟩
  · exact absurd ((inactive there).symm.trans active) Bool.false_ne_true
  · have := inactive there
    rw [ThreadedDrain.active, pc] at this
    cases this
  · have := inactive there
    rw [ThreadedDrain.active, pc] at this
    cases this
  · exact absurd ((same.trans idle).symm.trans busy) Bool.false_ne_true

/-- A call of `drain_pending_tasks` begins. -/
theorem orderly_callDrain (idle : m.dispatching = false) (connected : m.connected = true) :
    Orderly { m with drains := m.drains ++ [⟨[], .looping⟩] } := by
  obtain ⟨returned, finished⟩ := idle_of_not_dispatching idle
  have newest {i : Nat} {x : ThreadedDrain} (there : (m.drains ++ [⟨[], .looping⟩])[i]? = some x)
      (active : x.active = true) : i = m.drains.length ∧ x.pc = .looping := by
    rcases Nat.lt_or_ge i m.drains.length with old | new
    · rw [List.getElem?_append_left old] at there
      exact absurd ((returned x (List.mem_of_getElem? there)).symm.trans active) Bool.false_ne_true
    · rw [List.getElem?_append_right new] at there
      have first : i - m.drains.length = 0 := Nat.lt_one_iff.mp (List.getElem?_eq_some_iff.mp there).1
      rw [first] at there
      cases there
      exact ⟨by omega, rfl⟩
  refine ⟨fun i j x y one two first second => ?_, fun i x there pc => finished, fun i x batch there pc => ?_,
    fun _ w there => ?_, Ledger.leased_of_finished finished⟩
  · rw [(newest one first).1, (newest two second).1]
  · have := (newest there (by rw [ThreadedDrain.active, pc])).2
    rw [pc] at this
    cases this
  · refine List.all_eq_true.mp connected w (Dict.get?_isSome.mp ?_)
    exact there

variable {s : Scheduler} {i : Nat} {drain : ThreadedDrain}

variable {scope : Option (List TaskId)} {batch : List TaskId} {s' : Scheduler} {now : Time}

/-- Tasks are assigned and get their threads, and no drain but the one that did so is
active. -/
theorem orderly_spawn {drains : List ThreadedDrain} (finished : ∀ thread ∈ m.threads, thread.finished = true)
    (exclusive : s.Exclusive) (made : Scheduler.Batch scope m.scheduler batch s)
    (known : ∀ w, m.workers.contains w = true → (m.connections.get? w).isSome = true)
    (fewer : ∀ w, s.workers.contains w = true → m.workers.contains w = true)
    (single : ∀ (i j : Nat) (x y : ThreadedDrain), drains[i]? = some x → drains[j]? = some y → x.active = true →
      y.active = true → i = j) (awaited : ∀ (i : Nat) (x : ThreadedDrain), drains[i]? = some x → x.active = true →
      x.pc = .joining (List.range' m.threads.length batch.length)) :
    Orderly { { m with scheduler := s }.spawn batch with drains } := by
  refine ⟨single, fun i x there pc => ?_, fun i x joined there pc d thread here unfinished => ?_,
    fun _ w there => known w (fewer w there), Ledger.leased_of_batch finished exclusive made⟩
  · have := awaited i x there (by rw [ThreadedDrain.active, pc])
    rw [pc] at this
    cases this
  · have awaits := awaited i x there (by rw [ThreadedDrain.active, pc])
    rw [pc] at awaits
    obtain rfl := ThreadedDrainPc.joining.inj awaits
    -- a thread that has not ended is new
    have here : (m.threads ++ batch.map .start)[d]? = some thread := here
    rcases Nat.lt_or_ge d m.threads.length with old | new
    · rw [List.getElem?_append_left old] at here
      exact absurd (unfinished.symm.trans (finished thread (List.mem_of_getElem? here))) Bool.false_ne_true
    · have bound := (List.getElem?_eq_some_iff.mp here).1
      rw [List.length_append, List.length_map] at bound
      exact List.mem_range'_1.mpr ⟨new, bound⟩

/-- No other drain is active than the one that is. -/
theorem Orderly.others_inactive (orderly : m.Orderly) {j : Nat} {x : ThreadedDrain} (here : m.drains[i]? = some drain)
    (active : drain.active = true) (apart : j ≠ i) (there : m.drains[j]? = some x) : x.active = false := by
  by_contra also
  exact apart (orderly.single j i x drain there here (by simpa using also) active)

theorem Orderly.single_set (orderly : m.Orderly) (here : m.drains[i]? = some drain) (active : drain.active = true)
    (drain' : ThreadedDrain) (j k : Nat) (x y : ThreadedDrain) (one : (m.drains.set i drain')[j]? = some x)
    (two : (m.drains.set i drain')[k]? = some y) (first : x.active = true) (second : y.active = true) : j = k := by
  have mine {j : Nat} {x : ThreadedDrain} (there : (m.drains.set i drain')[j]? = some x) (busy : x.active = true) :
      j = i := by
    rcases getElem?_set_cases here there with ⟨same, _⟩ | ⟨apart, old⟩
    · exact same
    · exact absurd ((orderly.others_inactive here active apart old).symm.trans busy) Bool.false_ne_true
  rw [mine one first, mine two second]

/-- A drain returns, or goes on with the next round, when no thread runs. -/
theorem Orderly.setDrain (orderly : m.Orderly) {drain' : ThreadedDrain} (here : m.drains[i]? = some drain)
    (active : drain.active = true) (finished : ∀ thread ∈ m.threads, thread.finished = true)
    (next : ∀ batch, drain'.pc ≠ .joining batch) :
    (m.setDrain i drain').Orderly := by
  have busy : m.dispatching = true :=
    Bool.or_eq_true_iff.mpr (.inl (List.any_eq_true.mpr ⟨drain, List.mem_of_getElem? here, active⟩))
  refine ⟨orderly.single_set here active drain', fun _ _ _ _ => finished, fun j x batch there pc => ?_,
    fun _ => orderly.known busy, orderly.leased⟩
  rcases getElem?_set_cases here there with ⟨_, rfl⟩ | ⟨apart, old⟩
  · exact absurd pc (next batch)
  · have inactive := orderly.others_inactive here active apart old
    rw [ThreadedDrain.active, pc] at inactive
    cases inactive

theorem contains_of_batch (made : Scheduler.Batch scope s batch s') (w : WorkerId)
    (there : s'.workers.contains w = true) :
    s.workers.contains w = true := by
  induction made with
  | nil => exact there
  | cons grants _ _ ih =>
    obtain ⟨v, _, _, _, _, _, _, rfl⟩ := grants
    exact (Scheduler.contains_setStatus ..).symm.trans (ih there)

theorem Orderly.drainRound (orderly : m.Orderly) (fenced : m.Fenced) (here : m.drains[i]? = some drain)
    (taken : m.drainRound i drain = some m') : m'.Orderly := by
  unfold ThreadedMaster.drainRound at taken
  split at taken
  · rename_i pc
    have active : drain.active = true := by rw [ThreadedDrain.active, pc]
    have finished := orderly.looping i drain here pc
    have busy : m.dispatching = true :=
      Bool.or_eq_true_iff.mpr (.inl (List.any_eq_true.mpr ⟨drain, List.mem_of_getElem? here, active⟩))
    have made := m.scheduler.assignAll_batch none
    simp only at taken
    split at taken <;> cases taken
    · exact orderly.setDrain here active finished fun _ => ThreadedDrainPc.noConfusion
    · have exclusive := (fenced_of_changes (l := m.ledger) fenced (changes_of_batch made m.threads)).exclusive
      refine orderly_spawn finished exclusive made (orderly.known busy) (contains_of_batch made)
        (orderly.single_set here active _) fun j x there also => ?_
      rcases getElem?_set_cases here there with ⟨_, rfl⟩ | ⟨apart, old⟩
      · rfl
      · exact absurd ((orderly.others_inactive here active apart old).symm.trans also) Bool.false_ne_true
  · cases taken

theorem Orderly.drainJoins (orderly : m.Orderly) (here : m.drains[i]? = some drain)
    (taken : m.drainJoins i drain = some m') : m'.Orderly := by
  unfold ThreadedMaster.drainJoins at taken
  split at taken
  · rename_i batch pc
    split at taken <;> cases taken
    rename_i joined
    refine orderly.setDrain here (by rw [ThreadedDrain.active, pc]) (fun thread member => ?_)
      (fun _ => ThreadedDrainPc.noConfusion)
    obtain ⟨d, at_d⟩ := List.mem_iff_getElem?.mp member
    by_contra running
    have awaited := orderly.joining i drain batch here pc d thread at_d (by simpa using running)
    have ended := List.all_eq_true.mp joined d awaited
    rw [at_d] at ended
    exact running ended
  · cases taken

theorem orderly_submitAndDispatch (fenced : m.Fenced) (idle : m.dispatching = false) (connected : m.connected = true)
    (t : TaskId) (taskType : String) (payload : List (Key × Val)) :
    (m.submitAndDispatchTask t taskType payload).Orderly := by
  obtain ⟨returned, finished⟩ := idle_of_not_dispatching idle
  have submits := changes_of_submit m.scheduler m.threads t taskType payload
  have inactive {i : Nat} {x : ThreadedDrain} (there : m.drains[i]? = some x) (active : x.active = true) : False :=
    Bool.false_ne_true ((returned x (List.mem_of_getElem? there)).symm.trans active)
  unfold submitAndDispatchTask
  split
  · exact orderly_of_idle idle rfl rfl
  · rename_i task s accepted
    rw [accepted] at submits
    split
    · rename_i u s' granted
      obtain ⟨grants, within⟩ := Scheduler.assignNextPendingTask_some granted
      have made : Scheduler.Batch none s [u] s' := .cons grants within (.nil s')
      have exclusive := (fenced_of_changes (l := m.ledger) fenced
        (submits.trans (changes_of_batch made m.threads))).exclusive
      have same : s.workers = m.workers := by
        obtain ⟨_, _, rfl⟩ := Scheduler.submitTask_ok accepted
        rfl
      have spawned : Orderly { ({ m with scheduler := s' }.spawn [u]) with drains := m.drains } := by
        refine orderly_spawn (m := { m with scheduler := s }) finished exclusive made (fun w there => ?_)
          (contains_of_batch made) (fun i _ x _ one _ first => (inactive one first).elim)
          (fun i x there active => (inactive there active).elim)
        refine List.all_eq_true.mp connected w (Dict.get?_isSome.mp ?_)
        rw [← same]
        exact there
      exact spawned
    · exact orderly_of_idle idle rfl rfl

/-! ### One thread -/

theorem contains_released (s : Scheduler) (v w : WorkerId) :
    (s.released v).workers.contains w = s.workers.contains w := by
  unfold Scheduler.released
  split
  · rfl
  · exact Scheduler.contains_setStatus ..

theorem contains_of_progress {thread' : DispatchThread} (progress : Progress s thread s' thread') (w : WorkerId)
    (there : s'.workers.contains w = true) : s.workers.contains w = true := by
  cases progress with
  | begins _ _ _ | works _ _ | ends _ _ _ | starts _ _ _ | abandons _ _ _ _ _ _ => exact there
  | finishes _ _ _ _ _ =>
    rw [contains_released] at there
    exact there
  | condemns _ _ _ _ => exact (Scheduler.contains_setStatus ..).symm.trans there

section Turning
variable {pc : ThreadPc} (leased : Ledger.Leased m.scheduler m.connections m.threads)
  (here : m.threads[d]? = some thread) (n : ThreadedMaster) (threads : n.threads = m.threads)
  (connections : n.connections = m.connections)
include leased here threads connections

theorem leased_setThread (progress : Progress m.scheduler thread n.scheduler { thread with pc })
    (mine : DispatchThread.finished { thread with pc } = false → ∃ task', n.tasks.get? thread.task = some task' ∧
      DispatchThread.Standing m.connections task' { thread with pc })
    (lessee : ∀ w, DispatchThread.lessee n.scheduler { thread with pc } = some w →
      thread.lessee m.scheduler = some w) :
    Ledger.Leased (n.setThread d pc).scheduler (n.setThread d pc).connections (n.setThread d pc).threads := by
  have after : (n.setThread d pc).threads = m.threads.set d { thread with pc } :=
    (threads_modify (m := n) (threads ▸ here) _).trans (congrArg (List.set · d _) threads)
  rw [after, show (n.setThread d pc).connections = m.connections from connections]
  exact leased.turn here progress.unfinished rfl (fun _ _ => Ledger.takesBack_of_progress progress) mine lessee

theorem leased_finish (progress : Progress m.scheduler thread n.scheduler { thread with pc })
    (finished : DispatchThread.finished { thread with pc } = true) :
    Ledger.Leased (n.setThread d pc).scheduler (n.setThread d pc).connections (n.setThread d pc).threads := by
  refine leased_setThread leased here n threads connections progress (fun unfinished => ?_) fun w leases => ?_
  · exact absurd (unfinished.symm.trans finished) Bool.false_ne_true
  · rw [DispatchThread.lessee_finished finished] at leases
    cases leases

theorem leased_works {locals : Capture} (works : thread.pc.working? = some locals)
    (works' : pc.working? = some locals) (scheduler : n.scheduler = m.scheduler) :
    Ledger.Leased (n.setThread d pc).scheduler (n.setThread d pc).connections (n.setThread d pc).threads := by
  have progress : Progress m.scheduler thread n.scheduler { thread with pc } := by
    rw [scheduler]
    exact .works works works'
  obtain ⟨task, found, standing⟩ := leased.standing d thread here progress.unfinished
  refine leased_setThread leased here n threads connections progress (fun _ => ?_) fun w leases => ?_
  · refine ⟨task, ?_, standing.works works works'⟩
    rw [tasks, scheduler]
    exact found
  · have named : DispatchThread.lessee n.scheduler { thread with pc } = locals.workerId :=
      DispatchThread.lessee_working works' n.scheduler
    rw [thread.lessee_working works, ← named, leases]

theorem leased_begins {task : Task} (begins : thread.pc.begins = true) (begins' : pc.begins = true)
    (scheduler : n.scheduler = m.scheduler) (found : m.tasks.get? thread.task = some task)
    (captured : ∀ locals, pc = .captured locals → locals.attempt = task.attempt)
    (reads : ∀ w, task.assignedWorkerId = some w → thread.pc.Read m.connections w task.attempt →
      pc.Read m.connections w task.attempt) :
    Ledger.Leased (n.setThread d pc).scheduler (n.setThread d pc).connections (n.setThread d pc).threads := by
  have progress : Progress m.scheduler thread n.scheduler { thread with pc } := by
    rw [scheduler]
    exact .begins begins begins' fun locals read => ⟨task, found, captured locals read⟩
  obtain ⟨task', found', standing⟩ := leased.standing d thread here progress.unfinished
  obtain rfl := Option.some.inj (found.symm.trans found')
  have found' : n.scheduler.tasks.get? thread.task = some task := by rwa [scheduler]
  refine leased_setThread leased here n threads connections progress (fun _ => ⟨task, found', ?_⟩) fun w leases => ?_
  · cases standing with
    | held owner status read =>
      rw [begins] at status
      exact .held owner (by rw [begins']; exact status) (reads _ owner read)
    | lapsed idle free _ => exact .lapsed idle free fun other => absurd (begins'.symm.trans other) Bool.noConfusion
  · have same : DispatchThread.lessee n.scheduler { thread with pc } = _ :=
      DispatchThread.lessee_begins begins' found'
    rw [thread.lessee_begins begins found, ← same, leases]

end Turning

theorem Turn.leased (leased : Ledger.Leased m.scheduler m.connections m.threads) (here : m.threads[d]? = some thread)
    (turn : Turn floatRepr m d thread m') : Ledger.Leased m'.scheduler m'.connections m'.threads := by
  obtain ⟨thread', stepped⟩ := turn.stepped here
  have unfinished := stepped.progress.unfinished
  obtain ⟨task, found, standing⟩ := leased.standing d thread here unfinished
  cases turn with
  | @looks record w c pc found owner entry =>
    refine leased_begins leased here m rfl rfl (by rw [pc]; rfl) rfl rfl found
      (fun _ other => ThreadPc.noConfusion other) fun v named _ => ?_
    obtain rfl : w = v := Option.some.inj (owner.symm.trans named)
    refine ⟨fun c' got => ?_, fun _ none => ?_, fun _ none => ?_⟩
    · obtain rfl : c = c' := Option.some.inj got
      exact entry
    · exact absurd none (Option.some_ne_none _).symm
    · exact absurd none (Option.some_ne_none _).symm
  | @owns record c pc found =>
    refine leased_begins leased here m rfl rfl (by rw [pc]; rfl) rfl rfl found
      (fun _ other => ThreadPc.noConfusion other) fun v named read => ?_
    rw [pc] at read
    refine ⟨fun c' got => read.conn c' got, fun v' got => ?_, fun _ none => ?_⟩
    · exact (Option.some.inj got).symm.trans named
    · exact absurd none (Option.some_ne_none _).symm
  | @captures record c w pc found =>
    refine leased_begins leased here m rfl rfl (by rw [pc]; rfl) rfl rfl found ?_ fun v named read => ?_
    · intro locals captured
      obtain rfl := ThreadPc.captured.inj captured
      rfl
    · rw [pc] at read
      exact ⟨fun c' got => read.conn c' got, fun v' got => read.worker v' got,
        fun _ got => (Option.some.inj got).symm⟩
  | @starts record locals pc found' assigned =>
    obtain rfl := Option.some.inj (found.symm.trans found')
    rw [startTask_accepted found assigned]
    have progress := Progress.starts pc found assigned
    have after := threads_modify here
      (fun thread => { thread with claim := some task.attempt, pc := .sending locals })
    simp only [after]
    have read : ∃ w, task.assignedWorkerId = some w ∧ thread.pc.Read m.connections w task.attempt := by
      cases standing with
      | held owner _ read => exact ⟨_, owner, read⟩
      | lapsed idle _ _ =>
        rw [assigned] at idle
        cases idle
    obtain ⟨w, owner, read⟩ := read
    rw [pc] at read
    refine leased.turn here unfinished rfl (fun _ _ => Ledger.takesBack_of_progress progress) (fun _ => ?_) ?_
    · refine ⟨{ task with status := .running }, ?_, .held owner rfl ⟨read.conn, read.worker, read.attempt⟩⟩
      rw [Scheduler.get?_setTaskStatus, if_pos rfl, found]
      rfl
    · intro v leases
      rw [thread.lessee_begins (by rw [pc]; rfl) found, if_pos assigned, owner, ← leases]
      exact (read.worker _ rfl).symm
  | unsent pc _ _ | cut pc _ _ | closed pc _ _ _ =>
    exact leased_works leased here m rfl rfl (by rw [pc]; rfl) rfl rfl
  | sends pc _ _ => exact leased_works leased here (m.write ..) rfl rfl (by rw [pc]; rfl) rfl rfl
  | @receives session locals depth document rest pc _ _ =>
    unfold ThreadPc.received
    split
    · exact leased_finish leased here (m.popped ..) rfl rfl (.ends unfinished rfl rfl) rfl
    · split
      · exact leased_works leased here (m.popped ..) rfl rfl (by rw [pc]; rfl) rfl rfl
      · exact leased_works leased here (m.popped ..) rfl rfl (by rw [pc]; rfl) rfl rfl
      · exact leased_finish leased here (m.popped ..) rfl rfl (.ends unfinished rfl rfl) rfl
  | @mixed session locals outcome pc _ _ =>
    unfold ThreadPc.garbled
    split
    · exact leased_works leased here (m.setSession ..) rfl rfl (by rw [pc]; rfl) rfl rfl
    · exact leased_works leased here (m.setSession ..) rfl rfl (by rw [pc]; rfl) rfl rfl
    · exact leased_finish leased here (m.setSession ..) rfl rfl (.ends unfinished rfl rfl) rfl
  | unknown pc _ _ | refused pc _ _ | overflows pc _ _ | ignored pc _ | malformed pc _ _ | uncompleted pc _ _ _
  | forgotten pc _ | unowned pc _ => exact leased_finish leased here m rfl rfl (.ends unfinished rfl rfl) rfl
  | finishes _ found running owner _ mine =>
    exact leased_finish leased here { m with scheduler := _ } rfl rfl
      (.finishes unfinished found running owner mine) rfl
  | abandons _ found idle owner _ mine bad =>
    exact leased_finish leased here { m with scheduler := _ } rfl rfl
      (.abandons unfinished found idle owner mine bad) rfl
  | condemns _ found running owner _ =>
    exact leased_finish leased here { m with scheduler := _ } rfl rfl (.condemns unfinished found running owner) rfl

theorem Turn.frame (turn : Turn floatRepr m d thread m') : m'.drains = m.drains ∧ m'.connections = m.connections := by
  cases turn with
  | starts _ found assigned =>
    rw [startTask_accepted found assigned]
    exact ⟨rfl, rfl⟩
  | _ => exact ⟨rfl, rfl⟩

theorem Orderly.turn (orderly : m.Orderly) (here : m.threads[d]? = some thread)
    (turn : Turn floatRepr m d thread m') : m'.Orderly := by
  obtain ⟨thread', progress, threads⟩ := turn.stepped here
  obtain ⟨drains, connections⟩ := turn.frame
  have unfinished := progress.unfinished
  refine ⟨drains ▸ orderly.single, ?_, ?_, ?_, turn.leased orderly.leased here⟩
  · rw [drains]
    intro i x there pc
    exact absurd (unfinished.symm.trans (orderly.looping i x there pc thread (List.mem_of_getElem? here)))
      Bool.false_ne_true
  · rw [drains, threads]
    intro i x batch there pc e y running ongoing
    rcases getElem?_set_cases here running with ⟨rfl, rfl⟩ | ⟨_, old⟩
    · exact orderly.joining i x batch there pc e thread here unfinished
    · exact orderly.joining i x batch there pc e y old ongoing
  · rw [connections]
    exact fun _ w there =>
      orderly.known (dispatching_of_thread here unfinished) w (contains_of_progress progress w there)

/-! ### Every step -/

/-- A request that registers nobody leaves the known workers as they are. -/
theorem contains_of_request {ws ws' : WorkerManager} {request response : Message}
    (handled : Handled ws request now response ws') (other : request.type ≠ .register) (w : WorkerId) :
    ws'.contains w = ws.contains w := by
  cases handled with
  | registered granted _ => exact absurd (grantedRegistration_some granted).choose_spec.1 other
  | unchanged _ _ => rfl
  | beat _ _ _ _ =>
    simp only [Dict.contains, Dict.get?_modify]
    split <;> simp
  | drained _ _ _ _ _ => exact Scheduler.contains_setStatus ..

theorem serve_frame {c : ConnId} {session : Session} {delivered : Bool}
    (taken : m.serve floatRepr c session now delivered = some m') :
    m'.threads = m.threads ∧ m'.drains = m.drains ∧ m'.tasks = m.tasks := by
  have replied (n : ThreadedMaster) (request response : Message) :
      (n.afterReply c request response).threads = n.threads ∧ (n.afterReply c request response).drains = n.drains ∧
        (n.afterReply c request response).tasks = n.tasks := by
    unfold afterReply
    split <;> exact ⟨rfl, rfl, rfl⟩
  unfold serve at taken
  split at taken
  · simp only at taken
    split at taken
    · cases taken
      split <;> exact ⟨rfl, rfl, rfl⟩
    · cases taken
      exact ⟨rfl, rfl, rfl⟩
    · split at taken
      · cases taken
        exact ⟨rfl, rfl, rfl⟩
      · cases taken
        split
        · exact replied ..
        · exact ⟨rfl, rfl, rfl⟩
  · cases taken

theorem Orderly.submitTask (orderly : m.Orderly) (t : TaskId) (taskType : String) (payload : List (Key × Val)) :
    Orderly { m with scheduler := (m.scheduler.submitTask t taskType payload).2 } := by
  rcases m.scheduler.submitTask_cases t taskType payload with ⟨e, refused⟩ | ⟨absent, task, accepted⟩
  · rw [refused]
    exact orderly
  · rw [accepted]
    refine orderly.frame rfl rfl rfl (fun _ there => there) fun u task found => ⟨task, ?_, .inl rfl⟩
    rw [tasks, Dict.get?_insert, if_neg, found]
    rintro rfl
    exact Option.some_ne_none _ (found.symm.trans absent)

theorem Orderly.step (orderly : m.Orderly) (fenced : m.Fenced) (good : mainStep m a)
    (taken : m.step floatRepr a = some m') : m'.Orderly := by
  have same (n : ThreadedMaster) (u : TaskId) (task : Task) (found : n.tasks.get? u = some task) :
      ∃ task', n.tasks.get? u = some task' ∧ Ledger.TakesBack task task' := ⟨task, found, .inl rfl⟩
  cases occurs_of_step fenced taken with
  | connects _ _ _ _ | acts _ _ _ | loses _ _ | breaks _ _ =>
    exact orderly.frame rfl rfl rfl (fun _ there => there) (same m)
  | serves _ served =>
    obtain ⟨threads, drains, _⟩ := serve_frame served
    exact orderly_of_idle (Bool.not_eq_true' _ ▸ good) threads drains
  | enlists _ _ => exact orderly_of_idle (Bool.not_eq_true' _ ▸ good) rfl rfl
  | @handles message _ _ _ handled =>
    have other : message.type ≠ .register := of_decide_eq_true good
    exact orderly.frame rfl rfl rfl
      (fun w there => (contains_of_request (handleRequest_handled handled) other w).symm.trans there) (same m)
  | rejects _ _ => exact orderly
  | ticks now =>
    refine orderly.frame rfl rfl rfl (fun w there => ?_) fun u task found =>
      ⟨_, (Scheduler.get?_condemnStale ..).trans (congrArg (Option.map _) found), Ledger.takesBack_ite _ task⟩
    rw [workers, Scheduler.condemnStale_workers] at there
    simpa [Dict.contains, WorkerManager.get?_staleWorkers] using there
  | submits t taskType payload => exact orderly.submitTask ..
  | dispatches t taskType payload =>
    obtain ⟨idle, connected⟩ := Bool.and_eq_true_iff.mp good
    exact orderly_submitAndDispatch fenced (Bool.not_eq_true' _ ▸ idle) connected ..
  | calls =>
    obtain ⟨idle, connected⟩ := Bool.and_eq_true_iff.mp good
    exact orderly_callDrain (Bool.not_eq_true' _ ▸ idle) connected
  | rounds here turned => exact orderly.drainRound fenced here turned
  | joins here joined => exact orderly.drainJoins here joined
  | turns here turn => exact orderly.turn here turn

theorem orderly_of_run (run : Steps (step floatRepr) mainStep initial m) : m.Orderly :=
  run.invariant_with (I := Orderly) (fun _ before => fenced_of_run before)
    (orderly_of_idle (m := initial) rfl rfl rfl) fun _ _ _ fenced orderly good taken => orderly.step fenced good taken

end ThreadedMaster
end DistributedCompute
