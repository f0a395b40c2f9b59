import DistributedCompute.Futures
import DistributedCompute.Semaphore
import DistributedCompute.Transition
import DistributedCompute.Values

/-! `MultiprocessingBackend` over any number of lifetimes: `execute()` calls suspended
on the semaphore of their lifetime or on the result of a process pool, against
cancellations, dying child processes, `stop()` and `start()`. The pool may end the
work of a call at any time and with any result. The counters are kept beside it, in
`Metrics`. Log lines are left out, and so is a pool that cannot be built, which leaves
the backend as it was. -/
namespace DistributedCompute
open Py Semaphores Transition

inductive CallOutcome
  | returned (result : Val)
  | raised (exn : Exn)
  | cancelled

/-- Where an `execute()` call is suspended, or how it ended. A settled call has the
result of its work and has not run since. `mustCancel`: the call was cancelled after
its permit was granted. -/
inductive CallPhase
  | waiting (sem : Nat) (mustCancel : Bool)
  | submitted (permit : Option Nat) (pool : Nat)
  | settled (permit : Option Nat) (pool : Nat) (outcome : CallOutcome)
  | finished (outcome : CallOutcome)

namespace CallPhase

def waits (s : Nat) : CallPhase → Bool
  | .waiting sem _ => sem = s
  | _ => false

def holds (s : Nat) : CallPhase → Bool
  | .submitted permit _ | .settled permit _ _ => permit = some s
  | _ => false

def inPool (p : Nat) : CallPhase → Bool
  | .submitted _ pool | .settled _ pool _ => pool = p
  | _ => false

def isOver : CallPhase → Bool
  | .finished _ => true
  | _ => false

/-- How many more steps of its own the call can take. -/
def remaining : CallPhase → Nat
  | .waiting .. => 3
  | .submitted .. => 2
  | .settled .. => 1
  | .finished _ => 0

end CallPhase

/-- Pools and semaphores are named by their place in the list of all that were made.
`pools` says which pools are broken, `shutdowns` which pools a `stop()` call is
still waiting for. -/
structure Backend where
  maxInFlight : Option Nat
  pool : Option Nat
  semaphore : Option Nat
  pools : List Bool
  semaphores : List (Semaphore Nat)
  calls : List CallPhase
  shutdowns : List Nat

inductive BackendEvent
  | start
  | stop
  | stopReturns (pool : Nat)
  | execute
  | cancel (c : Nat)
  | workEnds (c : Nat) (outcome : CallOutcome)
  | crash (pool : Nat)
  | resume (c : Nat)

def notStarted : Exn :=
  ⟨"RuntimeError", "MultiprocessingBackend.execute() called before start() (or after stop())"⟩

def brokenPool : Exn :=
  ⟨"BrokenProcessPool", "A child process terminated abruptly, the process pool is not usable anymore"⟩

namespace Backend

def created (maxInFlight : Option Nat) : Backend := ⟨maxInFlight, none, none, [], [], [], []⟩

def start (b : Backend) : Backend :=
  let started := { b with pools := b.pools ++ [false], pool := some b.pools.length }
  match b.maxInFlight with
  | some k => { started with
      semaphores := b.semaphores ++ [.create k]
      semaphore := some b.semaphores.length }
  | none => started

/-- `stop()` up to its await; without a pool it returns at once. -/
def stop (b : Backend) : Backend :=
  { b with pool := none, semaphore := none, shutdowns := b.shutdowns ++ b.pool.toList }

/-- `pool.shutdown(wait=True)` returns once no call has work in the pool. -/
def stopReturns (b : Backend) (p : Nat) : Option Backend :=
  if p ∈ b.shutdowns ∧ (b.calls.all fun phase => match phase with | .submitted _ pool => pool ≠ p | _ => true)
  then some { b with shutdowns := b.shutdowns.erase p }
  else none

/-- `_submit` up to its await. It reads the pool of this moment. -/
def submission (b : Backend) (permit : Option Nat) : CallPhase :=
  match b.pool with
  | none => .finished (.raised notStarted)
  | some p => if b.pools[p]? = some true then .finished (.raised brokenPool) else .submitted permit p

/-- `async with` gives the permit back when its body is over. -/
def exitWith (phase : CallPhase) (sem : Semaphore Nat) : Semaphore Nat := if phase.isOver then sem.release else sem

def modifySemaphore (b : Backend) (s : Nat) (f : Semaphore Nat → Semaphore Nat) : Backend :=
  { b with semaphores := b.semaphores.modify s f }

def locked (b : Backend) (s : Nat) : Bool := (b.semaphores[s]?).any Semaphore.locked

/-- The ticket of a call in the queue of a semaphore. -/
def ticket (b : Backend) (s c : Nat) : Option Ticket := (b.semaphores[s]?).bind (·.waiters.get? c)

def addCall (b : Backend) (phase : CallPhase) : Backend := { b with calls := b.calls ++ [phase] }

def setCall (b : Backend) (c : Nat) (phase : CallPhase) : Backend := { b with calls := b.calls.set c phase }

/-- `execute()` up to its first await. -/
def execute (b : Backend) : Backend :=
  match b.pool with
  | none => b.addCall (.finished (.raised notStarted))
  | some _ =>
    match b.semaphore with
    | none => b.addCall (b.submission none)
    | some s =>
      if b.locked s then (b.addCall (.waiting s false)).modifySemaphore s (·.enqueue b.calls.length)
      else
        (b.addCall (b.submission (some s))).modifySemaphore s (fun sem =>
          exitWith (b.submission (some s)) sem.take)

/-- The task that runs the call is cancelled: what it waits for is cancelled, or it is
resumed with `CancelledError` the next time. -/
def cancel (b : Backend) (c : Nat) : Backend :=
  match b.calls[c]? with
  | some (.waiting s _) =>
    if b.ticket s c = some .granted then b.setCall c (.waiting s true)
    else b.modifySemaphore s (·.cancel c)
  | some (.submitted permit p) | some (.settled permit p _) => b.setCall c (.settled permit p .cancelled)
  | some (.finished _) | none => b

def workEnds (b : Backend) (c : Nat) (outcome : CallOutcome) : Option Backend :=
  match b.calls[c]? with
  | some (.submitted permit p) => some (b.setCall c (.settled permit p outcome))
  | _ => none

/-- The call runs on until it is suspended again or ends. -/
def resume (b : Backend) (c : Nat) : Option Backend :=
  match b.calls[c]? with
  | some (.waiting s mustCancel) =>
    match b.ticket s c with
    | some .granted =>
      if mustCancel then
        some ((b.setCall c (.finished .cancelled)).modifySemaphore s (fun sem => (sem.leave c).release))
      else
        let phase := b.submission (some s)
        some ((b.setCall c phase).modifySemaphore s (fun sem => exitWith phase (sem.takeUp c)))
    | some .cancelled => some ((b.setCall c (.finished .cancelled)).modifySemaphore s (·.leave c))
    | some .pending | none => none
  | some (.settled permit _ outcome) =>
    match permit with
    | some s => some ((b.setCall c (.finished outcome)).modifySemaphore s Semaphore.release)
    | none => some (b.setCall c (.finished outcome))
  | _ => none

def perform (b : Backend) : BackendEvent → Option Backend
  | .start => some b.start
  | .stop => some b.stop
  | .stopReturns p => b.stopReturns p
  | .execute => some b.execute
  | .cancel c => some (b.cancel c)
  | .workEnds c outcome => b.workEnds c outcome
  | .crash p => some { b with pools := b.pools.set p true }
  | .resume c => b.resume c

/-- The call waits for a permit and has not been cancelled. -/
def liveWaiter (b : Backend) (c : Nat) : Bool :=
  match b.calls[c]? with
  | some (.waiting s false) => b.ticket s c ≠ some .cancelled
  | _ => false

/-- `start()` is only called when nobody waits for a permit any more. -/
def quietStart (b : Backend) : BackendEvent → Prop
  | .start => ∀ c < b.calls.length, b.liveWaiter c = false
  | _ => True

/-- `start()` is only called when the `stop()` before it has returned. -/
def sequential (b : Backend) : BackendEvent → Prop
  | .start => b.pool = none ∧ b.shutdowns = []
  | _ => True

instance (b : Backend) : (e : BackendEvent) → Decidable (b.quietStart e)
  | .start => inferInstanceAs (Decidable (∀ c < b.calls.length, b.liveWaiter c = false))
  | .stop | .stopReturns _ | .execute | .cancel _ | .workEnds _ _ | .crash _ | .resume _ => isTrue trivial

instance (b : Backend) : (e : BackendEvent) → Decidable (b.sequential e)
  | .start => inferInstanceAs (Decidable (b.pool = none ∧ b.shutdowns = []))
  | .stop | .stopReturns _ | .execute | .cancel _ | .workEnds _ _ | .crash _ | .resume _ => isTrue trivial

/-! ### What one event does to one call -/

/-- The phases a call can go through; `none` before it is made. -/
inductive Successor (b : Backend) (c : Nat) : Option CallPhase → CallPhase → Prop
  | refused (stopped : b.pool = none) : Successor b c none (.finished (.raised notStarted))
  | uncapped {p : Nat} (running : b.pool = some p) (off : b.semaphore = none) :
      Successor b c none (b.submission none)
  | queued {p s : Nat} (running : b.pool = some p) (current : b.semaphore = some s) :
      Successor b c none (.waiting s false)
  | entered {p s : Nat} (running : b.pool = some p) (current : b.semaphore = some s) :
      Successor b c none (b.submission (some s))
  | woken {s : Nat} (granted : b.ticket s c = some .granted) :
      Successor b c (some (.waiting s false)) (b.submission (some s))
  | marked {s : Nat} {mustCancel : Bool} : Successor b c (some (.waiting s mustCancel)) (.waiting s true)
  | kept {phase : CallPhase} : Successor b c (some phase) phase
  | left {s : Nat} {mustCancel : Bool} : Successor b c (some (.waiting s mustCancel)) (.finished .cancelled)
  | ended {permit : Option Nat} {p : Nat} {outcome : CallOutcome} :
      Successor b c (some (.submitted permit p)) (.settled permit p outcome)
  | overruled {permit : Option Nat} {p : Nat} {outcome : CallOutcome} :
      Successor b c (some (.settled permit p outcome)) (.settled permit p .cancelled)
  | finished {permit : Option Nat} {p : Nat} {outcome : CallOutcome} :
      Successor b c (some (.settled permit p outcome)) (.finished outcome)

/-- Call `c` goes from `x` to `y`: what that means for the semaphore `r`. -/
structure Trade (c : Nat) (x : Option CallPhase) (y : CallPhase) (r : Nat) (sem after : Semaphore Nat) : Prop where
  permits : after.permits + (if y.holds r then 1 else 0) = sem.permits + if x.any (·.holds r) then 1 else 0
  mine : (after.waiters.get? c).isSome = y.waits r
  others : ∀ w, w ≠ c → Semaphore.Undisturbed sem after w
  cancelled : y.waits r = true → sem.waiters.get? c = some .cancelled → after.waiters.get? c = some .cancelled
  served : after.Served

/-- The list of calls with the one at `c` replaced or added. -/
structure Rewritten (calls after : List CallPhase) (c : Nat) (y : CallPhase) : Prop where
  call : ∀ w : Nat, after[w]? = if w = c then some y else calls[w]?
  count : ∀ f : CallPhase → Bool,
    after.countP f + (if (calls[c]?).any f then 1 else 0) = calls.countP f + if f y then 1 else 0

structure Exchange (b after : Backend) (c : Nat) (y : CallPhase) : Prop where
  maxInFlight : after.maxInFlight = b.maxInFlight
  pool : after.pool = b.pool
  semaphore : after.semaphore = b.semaphore
  pools : after.pools = b.pools
  size : after.semaphores.length = b.semaphores.length
  calls : Rewritten b.calls after.calls c y
  traded : ∀ (r : Nat) (sem' : Semaphore Nat), after.semaphores[r]? = some sem' →
    ∃ sem, b.semaphores[r]? = some sem ∧ Trade c b.calls[c]? y r sem sem'
  successor : Successor b c b.calls[c]? y

/-- The bookkeeping that holds in every state: permits are conserved, the queue of a
semaphore holds the calls that wait for it, and no permit is idle. -/
structure Sound (k : Nat) (b : Backend) : Prop where
  cap : b.maxInFlight = some k
  current : ∀ p, b.pool = some p → p < b.pools.length ∧ ∃ s, b.semaphore = some s ∧ s < b.semaphores.length
  knownSemaphore : ∀ phase ∈ b.calls, ∀ s, phase.waits s = true ∨ phase.holds s = true → s < b.semaphores.length
  knownPool : ∀ phase ∈ b.calls, ∀ p, phase.inPool p = true → p < b.pools.length
  conserved : ∀ (s : Nat) (sem : Semaphore Nat), b.semaphores[s]? = some sem →
    sem.permits + b.calls.countP (·.holds s) = k
  queued : ∀ (s : Nat) (sem : Semaphore Nat) (w : Nat), b.semaphores[s]? = some sem →
    (sem.waiters.get? w).isSome = (b.calls[w]?).any (·.waits s)
  served : ∀ (s : Nat) (sem : Semaphore Nat), b.semaphores[s]? = some sem → sem.Served

theorem rewritten_append (calls : List CallPhase) (y : CallPhase) :
    Rewritten calls (calls ++ [y]) calls.length y := by
  constructor
  · intro w
    rw [List.getElem?_append]
    by_cases inside : w < calls.length
    · rw [if_pos inside, if_neg (Nat.ne_of_lt inside)]
    · rw [if_neg inside]
      by_cases last : w = calls.length
      · rw [if_pos last, last, Nat.sub_self]
        rfl
      · rw [if_neg last, List.getElem?_eq_none (by simp; omega), List.getElem?_eq_none (by omega)]
  · intro f
    rw [List.countP_append, List.getElem?_eq_none le_rfl]
    simp [List.countP_singleton]

theorem rewritten_set {calls : List CallPhase} {c : Nat} {x : CallPhase} (here : calls[c]? = some x) (y : CallPhase) :
    Rewritten calls (calls.set c y) c y := by
  obtain ⟨inside, at_⟩ := List.getElem?_eq_some_iff.mp here
  constructor
  · intro w
    rw [List.getElem?_set]
    by_cases same : w = c
    · subst same
      simp [inside]
    · rw [if_neg (Ne.symm same), if_neg same]
  · intro f
    have counted := List.countP_set (p := f) (a := y) inside
    have present : f x = true → 0 < calls.countP f := fun holds =>
      List.countP_pos_iff.mpr ⟨x, List.mem_of_getElem? here, holds⟩
    rw [at_] at counted
    rw [here, counted]
    simp only [Option.any_some]
    by_cases was : f x = true
    · have positive := present was
      rw [if_pos was]
      omega
    · rw [if_neg was]
      omega

theorem rewritten_refl {calls : List CallPhase} {c : Nat} {x : CallPhase} (here : calls[c]? = some x) :
    Rewritten calls calls c x := by
  constructor
  · intro w
    split
    · rename_i same
      rw [same, here]
    · rfl
  · intro f
    rw [here]
    rfl

section Trading
variable {k : Nat} {b after : Backend} {c : Nat} {y : CallPhase}
variable {r s p : Nat} {sem : Semaphore Nat} {permit : Option Nat} {x : Option CallPhase} {mustCancel : Bool}

/-- A call that keeps its place at semaphore `r` leaves the semaphore as it was. -/
theorem Sound.trade_same (ok : Sound k b) (there : b.semaphores[r]? = some sem)
    (waits : y.waits r = (b.calls[c]?).any (·.waits r)) (holds : y.holds r = (b.calls[c]?).any (·.holds r)) :
    Trade c b.calls[c]? y r sem sem where
  permits := by rw [holds]
  mine := (ok.queued r sem c there).trans waits.symm
  others := fun _ _ => .of_eq rfl
  cancelled := fun _ held => held
  served := ok.served r sem there

/-- The trades of a step that changes one call and one semaphore. -/
theorem Sound.traded_modify (ok : Sound k b) {f : Semaphore Nat → Semaphore Nat}
    (here : ∀ sem, b.semaphores[s]? = some sem → Trade c b.calls[c]? y s sem (f sem))
    (away : ∀ r, r ≠ s → y.waits r = (b.calls[c]?).any (·.waits r) ∧ y.holds r = (b.calls[c]?).any (·.holds r)) :
    ∀ (r : Nat) (sem' : Semaphore Nat), (b.semaphores.modify s f)[r]? = some sem' →
      ∃ sem, b.semaphores[r]? = some sem ∧ Trade c b.calls[c]? y r sem sem' := by
  intro r sem' there
  rw [List.getElem?_modify] at there
  obtain ⟨sem, old, new⟩ := Option.map_eq_some_iff.mp there
  refine ⟨sem, old, ?_⟩
  split at new
  · rename_i same
    subst same
    subst new
    exact here sem old
  · rename_i other
    subst new
    exact ok.trade_same old (away r (Ne.symm other)).1 (away r (Ne.symm other)).2

/-- The trades of a step that changes one call only. -/
theorem Sound.traded_same (ok : Sound k b)
    (away : ∀ r, y.waits r = (b.calls[c]?).any (·.waits r) ∧ y.holds r = (b.calls[c]?).any (·.holds r)) :
    ∀ (r : Nat) (sem' : Semaphore Nat), b.semaphores[r]? = some sem' →
      ∃ sem, b.semaphores[r]? = some sem ∧ Trade c b.calls[c]? y r sem sem' :=
  fun r sem there => ⟨sem, there, ok.trade_same there (away r).1 (away r).2⟩

/-- A call moves on without touching a semaphore. -/
theorem Sound.exchange_call (ok : Sound k b) {x : CallPhase} (here : b.calls[c]? = some x)
    (same : ∀ r, y.waits r = x.waits r ∧ y.holds r = x.holds r) (next : Successor b c (some x) y) :
    Exchange b (b.setCall c y) c y := by
  refine ⟨rfl, rfl, rfl, rfl, rfl, rewritten_set here _, ok.traded_same ?_, ?_⟩
  · intro r
    rw [here]
    exact same r
  · rw [here]
    exact next

/-- A call moves on and one semaphore with it. -/
theorem Sound.exchange_semaphore (ok : Sound k b) {x : CallPhase} {f : Semaphore Nat → Semaphore Nat}
    (here : b.calls[c]? = some x) (trade : ∀ sem, b.semaphores[s]? = some sem → Trade c (some x) y s sem (f sem))
    (away : ∀ r, r ≠ s → y.waits r = x.waits r ∧ y.holds r = x.holds r) (next : Successor b c (some x) y) :
    Exchange b ((b.setCall c y).modifySemaphore s f) c y := by
  refine ⟨rfl, rfl, rfl, rfl, List.length_modify .., rewritten_set here _, ok.traded_modify ?_ ?_, ?_⟩
  · intro sem there
    rw [here]
    exact trade sem there
  · intro r other
    rw [here]
    exact away r other
  · rw [here]
    exact next

theorem submission_cases (b : Backend) (permit : Option Nat) :
    (∃ exn, b.submission permit = .finished (.raised exn)) ∨
      ∃ p, b.pool = some p ∧ b.submission permit = .submitted permit p := by
  unfold submission
  cases b.pool with
  | none => exact .inl ⟨_, rfl⟩
  | some p =>
    by_cases broken : b.pools[p]? = some true
    · exact .inl ⟨brokenPool, if_pos broken⟩
    · exact .inr ⟨p, rfl, if_neg broken⟩

theorem submission_waits (b : Backend) (permit : Option Nat) (r : Nat) : (b.submission permit).waits r = false := by
  rcases submission_cases b permit with ⟨exn, raised⟩ | ⟨p, -, sent⟩
  · rw [raised]
    rfl
  · rw [sent]
    rfl

theorem permit_of_holds (holds : (b.submission permit).holds r = true) :
    permit = some r := by
  rcases submission_cases b permit with ⟨exn, raised⟩ | ⟨p, -, sent⟩
  · rw [raised] at holds
    cases holds
  · rw [sent] at holds
    exact of_decide_eq_true holds

theorem submission_holds_ne (b : Backend) (other : r ≠ s) : (b.submission (some s)).holds r = false := by
  rw [Bool.eq_false_iff]
  intro holds
  exact other (Option.some.inj (permit_of_holds holds)).symm

theorem pool_of_inPool (inside : (b.submission permit).inPool p = true) :
    b.pool = some p := by
  rcases submission_cases b permit with ⟨exn, raised⟩ | ⟨q, running, sent⟩
  · rw [raised] at inside
    cases inside
  · rw [sent] at inside
    rw [running, of_decide_eq_true inside]

/-- A call that goes into the body of `async with`, having `sem` left behind it. -/
theorem trade_enter {taken : Semaphore Nat} (free : x.any (·.holds s) = false)
    (permits : taken.permits + 1 = sem.permits) (gone : taken.waiters.get? c = none)
    (others : ∀ w, w ≠ c → Semaphore.Undisturbed sem taken w) (served : taken.Served) :
    Trade c x (b.submission (some s)) s sem (exitWith (b.submission (some s)) taken) := by
  rcases submission_cases b (some s) with ⟨exn, raised⟩ | ⟨p, -, sent⟩
  · rw [raised]
    refine ⟨?_, ?_, fun w other => (others w other).trans (Semaphore.undisturbed_release taken w),
      fun waits => (by cases waits), Semaphore.served_wakeUpNext _⟩
    · rw [free, ← permits]
      exact Semaphore.permits_release
    · refine (Semaphore.undisturbed_release taken c).queued.trans ?_
      rw [gone]
      rfl
  · rw [sent]
    refine ⟨?_, ?_, others, fun waits => (by cases waits), served⟩
    · rw [free, ← permits]
      simp [exitWith, CallPhase.isOver, CallPhase.holds]
    · show (taken.waiters.get? c).isSome = false
      rw [gone]
      rfl

/-! ### Every event -/

theorem Sound.execute (ok : Sound k b) : ∃ y, Exchange b b.execute b.calls.length y := by
  have new : b.calls[b.calls.length]? = none := List.getElem?_eq_none le_rfl
  unfold Backend.execute
  cases running : b.pool with
  | none =>
    refine ⟨_, rfl, rfl, rfl, rfl, rfl, rewritten_append _ _, ok.traded_same ?_, ?_⟩
    · intro r
      rw [new]
      exact ⟨rfl, rfl⟩
    · rw [new]
      exact .refused running
  | some p =>
    obtain ⟨-, s, current, -⟩ := ok.current p running
    have absent {sem : Semaphore Nat} (there : b.semaphores[s]? = some sem) :
        sem.waiters.get? b.calls.length = none := by
      have queued := ok.queued s sem b.calls.length there
      rw [new] at queued
      exact Option.isNone_iff_eq_none.mp (by simpa using queued)
    simp only [current]
    by_cases locked : b.locked s = true
    · rw [if_pos locked]
      refine ⟨_, rfl, rfl, rfl, rfl, List.length_modify .., rewritten_append _ _, ok.traded_modify ?_ ?_, ?_⟩
      · intro sem there
        rw [new]
        have full : sem.locked = true := by simpa [Backend.locked, there] using locked
        refine ⟨?_, ?_, fun w other => Semaphore.undisturbed_enqueue other,
          fun _ held => (by cases (absent there).symm.trans held),
          Semaphore.served_enqueue full (absent there) (ok.served s sem there)⟩
        · exact Semaphore.permits_enqueue (absent there)
        · rw [Semaphore.enqueue, Dict.get?_insert_self]
          exact (decide_eq_true rfl).symm
      · intro r other
        rw [new]
        exact ⟨decide_eq_false (Ne.symm other), rfl⟩
      · rw [new]
        exact .queued running current
    · rw [if_neg locked]
      refine ⟨_, rfl, rfl, rfl, rfl, List.length_modify .., rewritten_append _ _, ok.traded_modify ?_ ?_, ?_⟩
      · intro sem there
        have free : sem.locked = false := by simpa [Backend.locked, there] using locked
        rw [new]
        have gone : sem.take.waiters.get? b.calls.length = none := @absent sem there
        exact trade_enter rfl (Semaphore.permits_take free) gone (fun _ _ => .of_eq rfl)
          (Semaphore.served_take free)
      · intro r other
        rw [new]
        exact ⟨submission_waits b _ r, submission_holds_ne b other⟩
      · rw [new]
        exact .entered running current

theorem Sound.workEnds (ok : Sound k b) {outcome : CallOutcome} (taken : b.workEnds c outcome = some after) :
    ∃ x y, b.calls[c]? = some x ∧ y.remaining < x.remaining ∧ Exchange b after c y := by
  unfold Backend.workEnds at taken
  split at taken
  · rename_i permit p here
    obtain rfl := Option.some.inj taken
    exact ⟨_, .settled permit p outcome, here, Nat.lt_succ_self 1,
      ok.exchange_call here (fun _ => ⟨rfl, rfl⟩) .ended⟩
  · cases taken

theorem Sound.cancel (ok : Sound k b) : b.cancel c = b ∨ ∃ y, Exchange b (b.cancel c) c y := by
  unfold Backend.cancel
  cases here : b.calls[c]? with
  | none => exact .inl rfl
  | some phase =>
    cases phase with
    | waiting s mustCancel =>
      refine .inr ?_
      by_cases granted : b.ticket s c = some .granted
      · simp only [if_pos granted]
        exact ⟨_, ok.exchange_call here (fun _ => ⟨rfl, rfl⟩) .marked⟩
      · simp only [if_neg granted]
        refine ⟨_, rfl, rfl, rfl, rfl, List.length_modify .., rewritten_refl here,
          ok.traded_modify (s := s) ?_ ?_, ?_⟩
        · intro sem there
          have queued := ok.queued s sem c there
          rw [here] at queued ⊢
          obtain ⟨t, held⟩ := Option.isSome_iff_exists.mp (queued.trans (decide_eq_true rfl))
          refine ⟨?_, ?_, fun w _ => Semaphore.undisturbed_cancel w,
            fun _ => (Semaphore.undisturbed_cancel c).cancelled, Semaphore.served_cancel (ok.served s sem there)⟩
          · rw [Semaphore.permits_cancel held]
            rfl
          · exact (Semaphore.undisturbed_cancel c).queued.trans queued
        · intro r other
          rw [here]
          exact ⟨rfl, rfl⟩
        · rw [here]
          exact .kept
    | submitted permit p => exact .inr ⟨_, ok.exchange_call here (fun _ => ⟨rfl, rfl⟩) .ended⟩
    | settled permit p outcome => exact .inr ⟨_, ok.exchange_call here (fun _ => ⟨rfl, rfl⟩) .overruled⟩
    | finished outcome => exact .inl rfl

theorem ticket_eq {t : Ticket} (found : b.ticket s c = some t) :
    ∃ sem, b.semaphores[s]? = some sem ∧ sem.waiters.get? c = some t :=
  Option.bind_eq_some_iff.mp found

theorem remaining_submission (b : Backend) (permit : Option Nat) : (b.submission permit).remaining < 3 := by
  rcases submission_cases b permit with ⟨exn, raised⟩ | ⟨p, -, sent⟩
  · rw [raised]
    exact Nat.zero_lt_succ _
  · rw [sent]
    exact Nat.lt_succ_self 2

/-- A call that was granted a permit but is cancelled gives the permit back. -/
theorem trade_released (held : sem.waiters.get? c = some .granted) :
    Trade c (some (.waiting s mustCancel)) (.finished .cancelled) s sem (sem.leave c).release := by
  refine ⟨?_, ?_, fun w other => (Semaphore.undisturbed_leave other).trans (Semaphore.undisturbed_release _ w),
    fun waits => (by cases waits), Semaphore.served_wakeUpNext _⟩
  · have permits := Semaphore.permits_leave held
    rw [if_pos rfl] at permits
    exact Semaphore.permits_release.trans permits
  · refine (Semaphore.undisturbed_release _ c).queued.trans ?_
    rw [Semaphore.get?_leave, if_pos rfl]
    rfl

/-- A call whose wait was cancelled leaves the queue. -/
theorem trade_left (held : sem.waiters.get? c = some .cancelled) (served : sem.Served) :
    Trade c (some (.waiting s mustCancel)) (.finished .cancelled) s sem (sem.leave c) := by
  refine ⟨?_, ?_, fun w other => Semaphore.undisturbed_leave other, fun waits => (by cases waits),
    Semaphore.served_leave ?_ served⟩
  · have permits := Semaphore.permits_leave held
    rw [if_neg (by decide)] at permits
    exact permits
  · rw [Semaphore.get?_leave, if_pos rfl]
    rfl
  · rw [held]
    decide

theorem Sound.resume_waiting (ok : Sound k b) (here : b.calls[c]? = some (.waiting s mustCancel))
    (taken : b.resume c = some after) :
    ∃ y, y.remaining < (CallPhase.waiting s mustCancel).remaining ∧ Exchange b after c y := by
  have elsewhere (r : Nat) (other : r ≠ s) : (CallPhase.waiting s mustCancel).waits r = false :=
    decide_eq_false (Ne.symm other)
  unfold Backend.resume at taken
  rw [here] at taken
  cases found : b.ticket s c with
  | none => simp [found] at taken
  | some t =>
    obtain ⟨sem, there, held⟩ := ticket_eq found
    have only {sem' : Semaphore Nat} (again : b.semaphores[s]? = some sem') : sem' = sem :=
      Option.some.inj (again.symm.trans there)
    cases t with
    | pending => simp [found] at taken
    | granted =>
      cases mustCancel with
      | true =>
        simp only [found, if_pos] at taken
        obtain rfl := Option.some.inj taken
        refine ⟨.finished .cancelled, Nat.zero_lt_succ _, ok.exchange_semaphore here ?_ ?_ .left⟩
        · intro sem' again
          rw [only again]
          exact trade_released held
        · exact fun r other => ⟨(elsewhere r other).symm, rfl⟩
      | false =>
        simp only [found, Bool.false_eq_true, if_false] at taken
        obtain rfl := Option.some.inj taken
        refine ⟨_, remaining_submission b (some s), ok.exchange_semaphore here ?_ ?_ (.woken found)⟩
        · intro sem' again
          rw [only again]
          exact trade_enter rfl (Semaphore.permits_takeUp held) (Semaphore.get?_takeUp_self sem c)
            (fun w other => Semaphore.undisturbed_takeUp other) (Semaphore.served_takeUp sem c)
        · intro r other
          exact ⟨(submission_waits b _ r).trans (elsewhere r other).symm, submission_holds_ne b other⟩
    | cancelled =>
      simp only [found] at taken
      obtain rfl := Option.some.inj taken
      refine ⟨.finished .cancelled, Nat.zero_lt_succ _, ok.exchange_semaphore here ?_ ?_ .left⟩
      · intro sem' again
        rw [only again]
        exact trade_left held (ok.served s sem there)
      · exact fun r other => ⟨(elsewhere r other).symm, rfl⟩

theorem Sound.resume_settled (ok : Sound k b) {outcome : CallOutcome}
    (here : b.calls[c]? = some (.settled permit p outcome)) (taken : b.resume c = some after) :
    Exchange b after c (.finished outcome) := by
  unfold Backend.resume at taken
  rw [here] at taken
  cases permit with
  | none =>
    obtain rfl := Option.some.inj taken
    exact ok.exchange_call here (fun _ => ⟨rfl, rfl⟩) .finished
  | some s =>
    obtain rfl := Option.some.inj taken
    refine ok.exchange_semaphore here ?_ ?_ .finished
    · intro sem there
      have queued := ok.queued s sem c there
      rw [here] at queued
      refine ⟨?_, ?_, fun w _ => Semaphore.undisturbed_release sem w, fun waits => (by cases waits),
        Semaphore.served_wakeUpNext _⟩
      · rw [Semaphore.permits_release]
        simp [CallPhase.holds]
      · exact (Semaphore.undisturbed_release sem c).queued.trans queued
    · intro r other
      exact ⟨rfl, (decide_eq_false fun same => other (Option.some.inj same).symm).symm⟩

theorem Sound.resume (ok : Sound k b) (taken : b.resume c = some after) :
    ∃ x y, b.calls[c]? = some x ∧ y.remaining < x.remaining ∧ Exchange b after c y := by
  have resumed := taken
  unfold Backend.resume at taken
  cases here : b.calls[c]? with
  | none =>
    rw [here] at taken
    cases taken
  | some phase =>
    cases phase with
    | waiting s mustCancel =>
      obtain ⟨y, fewer, exchange⟩ := ok.resume_waiting here resumed
      exact ⟨_, y, rfl, fewer, exchange⟩
    | settled permit p outcome =>
      exact ⟨_, .finished outcome, rfl, Nat.zero_lt_succ _, ok.resume_settled here resumed⟩
    | submitted permit p | finished outcome =>
      rw [here] at taken
      cases taken

theorem Successor.uses (successor : Successor b c x y) (uses : y.waits s = true ∨ y.holds s = true) :
    x.any (·.waits s) = true ∨ x.any (·.holds s) = true ∨ ∃ p, b.pool = some p ∧ b.semaphore = some s := by
  have sent {permit : Option Nat}
      (uses : (b.submission permit).waits s = true ∨ (b.submission permit).holds s = true) : permit = some s := by
    rcases uses with waits | holds
    · rw [submission_waits] at waits
      cases waits
    · exact permit_of_holds holds
  cases successor with
  | refused => rcases uses with waits | holds <;> contradiction
  | uncapped => cases sent uses
  | queued running current =>
    rcases uses with waits | holds
    · exact .inr (.inr ⟨_, running, (of_decide_eq_true waits) ▸ current⟩)
    · cases holds
  | entered running current => exact .inr (.inr ⟨_, running, current.trans (sent uses)⟩)
  | woken => exact .inl (decide_eq_true (Option.some.inj (sent uses)))
  | marked =>
    rcases uses with waits | holds
    · exact .inl waits
    · cases holds
  | kept =>
    rcases uses with waits | holds
    · exact .inl waits
    · exact .inr (.inl holds)
  | left => rcases uses with waits | holds <;> contradiction
  | ended | overruled =>
    rcases uses with waits | holds
    · cases waits
    · exact .inr (.inl holds)
  | finished => rcases uses with waits | holds <;> contradiction

theorem Successor.inside (successor : Successor b c x y) (inPool : y.inPool p = true) :
    x.any (·.inPool p) = true ∨ b.pool = some p := by
  cases successor with
  | refused | queued | marked | left | finished => cases inPool
  | uncapped | entered | woken => exact .inr (pool_of_inPool inPool)
  | kept | ended | overruled => exact .inl inPool

theorem Successor.waiting (successor : Successor b c x y) (waiting : y = .waiting s false) :
    b.semaphore = some s ∨ x = some y := by
  have sent {permit : Option Nat} (same : b.submission permit = .waiting s false) : False := by
    have waits := submission_waits b permit s
    rw [same] at waits
    exact absurd rfl (of_decide_eq_false waits)
  cases successor with
  | refused | marked | left | ended | overruled | finished => cases waiting
  | uncapped | entered | woken => exact (sent waiting).elim
  | queued running current =>
    cases waiting
    exact .inl current
  | kept => exact .inr rfl

theorem Rewritten.mem {calls later : List CallPhase} (rewritten : Rewritten calls later c y) {phase : CallPhase}
    (member : phase ∈ later) : phase = y ∨ phase ∈ calls := by
  obtain ⟨w, there⟩ := List.getElem?_of_mem member
  rw [rewritten.call] at there
  split at there
  · exact .inl (Option.some.inj there).symm
  · exact .inr (List.mem_of_getElem? there)

theorem Sound.exchange (ok : Sound k b) (step : Exchange b after c y) : Sound k after where
  cap := step.maxInFlight.trans ok.cap
  current := by
    intro p running
    rw [step.pools, step.semaphore, step.size]
    exact ok.current p (step.pool.symm.trans running)
  knownSemaphore := by
    intro phase member s uses
    rw [step.size]
    rcases step.calls.mem member with rfl | old
    · have before {f : CallPhase → Bool} (held : (b.calls[c]?).any f = true) : ∃ x ∈ b.calls, f x = true := by
        obtain ⟨x, here, fits⟩ := (Option.any_eq_true ..).mp held
        exact ⟨x, List.mem_of_getElem? here, fits⟩
      rcases step.successor.uses uses with waits | holds | ⟨p, running, current⟩
      · obtain ⟨x, here, waits⟩ := before waits
        exact ok.knownSemaphore x here s (.inl waits)
      · obtain ⟨x, here, holds⟩ := before holds
        exact ok.knownSemaphore x here s (.inr holds)
      · obtain ⟨-, s', current', inside⟩ := ok.current p running
        rwa [Option.some.inj (current.symm.trans current')]
    · exact ok.knownSemaphore phase old s uses
  knownPool := by
    intro phase member p inPool
    rw [step.pools]
    rcases step.calls.mem member with rfl | old
    · rcases step.successor.inside inPool with was | running
      · obtain ⟨x, here, inPool⟩ := (Option.any_eq_true ..).mp was
        exact ok.knownPool x (List.mem_of_getElem? here) p inPool
      · exact (ok.current p running).1
    · exact ok.knownPool phase old p inPool
  conserved := by
    intro s sem' there
    obtain ⟨sem, old, trade⟩ := step.traded s sem' there
    have permits := trade.permits
    have count := step.calls.count (·.holds s)
    have total := ok.conserved s sem old
    omega
  queued := by
    intro s sem' w there
    obtain ⟨sem, old, trade⟩ := step.traded s sem' there
    rw [step.calls.call]
    split
    · rename_i same
      subst same
      exact trade.mine
    · rename_i other
      exact (trade.others w other).queued.trans (ok.queued s sem w old)
  served := by
    intro s sem' there
    obtain ⟨sem, -, trade⟩ := step.traded s sem' there
    exact trade.served

theorem Sound.created (k : Nat) : Sound k (created (some k)) := by
  refine ⟨rfl, ?_, ?_, ?_, ?_, ?_, ?_⟩
  · intro p running
    cases running
  · intro phase member
    cases member
  · intro phase member
    cases member
  · intro s sem there
    cases there
  · intro s sem w there
    cases there
  · intro s sem there
    cases there

theorem Sound.start (ok : Sound k b) : Sound k b.start := by
  have shape : b.start = { b with
      pools := b.pools ++ [false]
      pool := some b.pools.length
      semaphores := b.semaphores ++ [.create k]
      semaphore := some b.semaphores.length } := by
    unfold Backend.start
    rw [ok.cap]
  -- The new semaphore is used by nobody.
  have unused (phase : CallPhase) (member : phase ∈ b.calls) :
      phase.waits b.semaphores.length = false ∧ phase.holds b.semaphores.length = false := by
    constructor
    · rw [Bool.eq_false_iff]
      exact fun waits => Nat.lt_irrefl _ (ok.knownSemaphore phase member _ (.inl waits))
    · rw [Bool.eq_false_iff]
      exact fun holds => Nat.lt_irrefl _ (ok.knownSemaphore phase member _ (.inr holds))
  have read {s : Nat} {sem : Semaphore Nat} (there : (b.semaphores ++ [.create k])[s]? = some sem) :
      b.semaphores[s]? = some sem ∨ s = b.semaphores.length ∧ sem = .create k :=
    Futures.getElem?_concat_cases there
  rw [shape]
  refine ⟨ok.cap, ?_, ?_, ?_, ?_, ?_, ?_⟩
  · rintro p ⟨⟩
    simp
  · intro phase member s uses
    rw [List.length_append]
    exact Nat.lt_add_right _ (ok.knownSemaphore phase member s uses)
  · intro phase member p inPool
    rw [List.length_append]
    exact Nat.lt_add_right _ (ok.knownPool phase member p inPool)
  · intro s sem there
    rcases read there with old | ⟨rfl, rfl⟩
    · exact ok.conserved s sem old
    · rw [List.countP_eq_zero.mpr fun phase member => by simp [(unused phase member).2]]
      rfl
  · intro s sem w there
    rcases read there with old | ⟨rfl, rfl⟩
    · exact ok.queued s sem w old
    · show false = (b.calls[w]?).any _
      cases here : b.calls[w]? with
      | none => rfl
      | some phase => exact (unused phase (List.mem_of_getElem? here)).1.symm
  · intro s sem there
    rcases read there with old | ⟨rfl, rfl⟩
    · exact ok.served s sem old
    · exact Semaphore.served_create k

/-- What an event can do. The calls and semaphores are touched by one exchange at most. -/
inductive Change (b : Backend) : BackendEvent → Backend → Prop
  | start : Change b .start b.start
  | stop : Change b .stop b.stop
  | aside {e : BackendEvent} (pools : List Bool) (size : pools.length = b.pools.length) (shutdowns : List Nat) :
      Change b e { b with pools := pools, shutdowns := shutdowns }
  | exchange {e : BackendEvent} {after : Backend} {c : Nat} {y : CallPhase} (step : Exchange b after c y) :
      Change b e after

theorem Sound.change_of_perform (ok : Sound k b) {e : BackendEvent} (taken : b.perform e = some after) :
    Change b e after := by
  cases e with
  | start =>
    obtain rfl := Option.some.inj taken
    exact .start
  | stop =>
    obtain rfl := Option.some.inj taken
    exact .stop
  | stopReturns p =>
    simp only [perform, stopReturns] at taken
    split at taken
    · obtain rfl := Option.some.inj taken
      exact .aside b.pools rfl _
    · cases taken
  | execute =>
    obtain rfl := Option.some.inj taken
    obtain ⟨y, step⟩ := ok.execute
    exact .exchange step
  | cancel c =>
    obtain rfl := Option.some.inj taken
    rcases ok.cancel with same | ⟨y, step⟩
    · rw [same]
      exact .aside b.pools rfl b.shutdowns
    · exact .exchange step
  | workEnds c outcome =>
    obtain ⟨x, y, -, -, step⟩ := ok.workEnds taken
    exact .exchange step
  | crash p =>
    obtain rfl := Option.some.inj taken
    exact .aside _ List.length_set b.shutdowns
  | resume c =>
    obtain ⟨x, y, -, -, step⟩ := ok.resume taken
    exact .exchange step

theorem Sound.change {e : BackendEvent} (ok : Sound k b) (change : Change b e after) : Sound k after := by
  cases change with
  | start => exact ok.start
  | stop =>
    refine ⟨ok.cap, ?_, ok.knownSemaphore, ok.knownPool, ok.conserved, ok.queued, ok.served⟩
    intro p running
    cases running
  | aside pools size shutdowns =>
    refine ⟨ok.cap, ?_, ok.knownSemaphore, ?_, ok.conserved, ok.queued, ok.served⟩
    · rw [size]
      exact ok.current
    · rw [size]
      exact ok.knownPool
  | exchange step => exact ok.exchange step

theorem sound_of_steps {condition : Backend → BackendEvent → Prop}
    (run : Steps perform condition (created (some k)) b) : Sound k b :=
  run.invariant (Sound.created k) fun _ _ _ ok _ taken => ok.change (ok.change_of_perform taken)

end Trading
end Backend
end DistributedCompute
