import DistributedCompute.Backend

/-! The counters of `MultiprocessingBackend`, kept beside the backend's own state. They
are read and written between awaits only, so each event updates them as a whole. The
two running times are left out. -/
namespace DistributedCompute
open Py Transition

/-- `BackendMetrics`. -/
structure Metrics where
  submitted : Int
  running : Int
  completed : Int
  failed : Int
  backendErrors : Int
  deriving DecidableEq, Repr

/-- Caught by `except Exception`: the built-in exceptions that are not are named here. -/
def isException (exn : Exn) : Bool :=
  exn.typeName ∉ ["BaseException", "BaseExceptionGroup", "GeneratorExit", "KeyboardInterrupt", "SystemExit"]

namespace Metrics

def zero : Metrics := ⟨0, 0, 0, 0, 0⟩

def accepted (m : Metrics) : Metrics := { m with submitted := m.submitted + 1 }

def runBegins (m : Metrics) : Metrics := { m with running := m.running + 1 }

def runEnds (m : Metrics) : Metrics := { m with running := m.running - 1 }

def error (m : Metrics) : Metrics := { m with backendErrors := m.backendErrors + 1 }

/-- The rest of `_run_and_record` and `execute` once the work of a call is over.
A result without a status raises when its status is read. -/
def recorded (m : Metrics) : CallOutcome → Metrics
  | .returned (.dict entries) =>
    match entry "status" entries with
    | some (.str "success") => { m with completed := m.completed + 1 }
    | some _ => { m with failed := m.failed + 1 }
    | none => m.error
  | .returned _ => m.error
  | .raised exn => if isException exn then m.error else m
  | .cancelled => m

/-- `_run_and_record` up to its await, or to its end when `_submit` raises. -/
def submits (m : Metrics) : CallPhase → Metrics
  | .finished outcome => m.runBegins.runEnds.recorded outcome
  | _ => m.runBegins

end Metrics

structure Metered where
  backend : Backend
  metrics : Metrics

namespace Metered

/-- The counters after an event, from the state in which it happens. -/
def measure (m : Metered) : BackendEvent → Metrics
  | .start => .zero
  | .execute =>
    match m.backend.pool with
    | none => m.metrics
    | some _ =>
      match m.backend.semaphore with
      | none => m.metrics.accepted.submits (m.backend.submission none)
      | some s =>
        if m.backend.locked s then m.metrics.accepted
        else m.metrics.accepted.submits (m.backend.submission (some s))
  | .resume c =>
    match m.backend.calls[c]? with
    | some (.waiting s false) =>
      if m.backend.ticket s c = some .granted then m.metrics.submits (m.backend.submission (some s))
      else m.metrics
    | some (.settled _ _ outcome) => m.metrics.runEnds.recorded outcome
    | _ => m.metrics
  | .stop | .stopReturns _ | .cancel _ | .workEnds _ _ | .crash _ => m.metrics

def perform (m : Metered) (e : BackendEvent) : Option Metered :=
  (m.backend.perform e).map (fun after => ⟨after, m.measure e⟩)

/-- The state in which `start()` leaves the backend. -/
def start (m : Metered) : Metered := ⟨m.backend.start, .zero⟩

/-- What may happen until the next `start()`: work ends with a result, with an
`Exception` or by cancellation. -/
def lifetime (_ : Metered) : BackendEvent → Prop
  | .start => False
  | .workEnds _ (.raised exn) => isException exn = true
  | _ => True

instance (m : Metered) : (e : BackendEvent) → Decidable (m.lifetime e)
  | .start => isFalse id
  | .workEnds _ (.raised exn) => inferInstanceAs (Decidable (isException exn = true))
  | .workEnds _ (.returned _) | .workEnds _ .cancelled => isTrue trivial
  | .stop | .stopReturns _ | .execute | .cancel _ | .crash _ | .resume _ => isTrue trivial

end Metered

/-! ### What a call counts as -/

namespace CallPhase

/-- Inside `_run_and_record`. -/
def inside : CallPhase → Bool
  | .submitted .. | .settled .. => true
  | _ => false

def isWaiting : CallPhase → Bool
  | .waiting .. => true
  | _ => false

def isCancelled : CallPhase → Bool
  | .finished .cancelled => true
  | _ => false

/-- Ended with an exception that nothing counts. -/
def escaped : CallPhase → Bool
  | .finished (.raised exn) => !isException exn
  | _ => false

/-- Has not ended its work with an exception that nothing counts. -/
def clean : CallPhase → Bool
  | .settled _ _ (.raised exn) | .finished (.raised exn) => isException exn
  | _ => true

/-- Accepted, and in none of the five counters but `submitted`. -/
def uncounted (phase : CallPhase) : Bool := phase.isWaiting || phase.isCancelled || phase.escaped

end CallPhase

theorem countP_uncounted (calls : List CallPhase) : calls.countP CallPhase.uncounted =
    calls.countP CallPhase.isWaiting + calls.countP CallPhase.isCancelled + calls.countP CallPhase.escaped := by
  induction calls with
  | nil => rfl
  | cons phase rest ih =>
    -- no call is two of the three
    have one : (if phase.uncounted then 1 else 0) = (if phase.isWaiting then 1 else 0) +
        (if phase.isCancelled then 1 else 0) + if phase.escaped then 1 else 0 := by
      cases phase with
      | waiting | submitted | settled => rfl
      | finished outcome =>
        cases outcome with
        | returned | cancelled => rfl
        | raised exn =>
          simp [CallPhase.uncounted, CallPhase.isWaiting, CallPhase.isCancelled, CallPhase.escaped]
    simp only [List.countP_cons, ih, one]
    omega

/-- The calls that were submitted and are in no other counter. -/
def Metrics.missing (m : Metrics) : Int := m.submitted - m.running - m.completed - m.failed - m.backendErrors

def weight (yes : Bool) : Int := if yes then 1 else 0

@[simp] theorem weight_true : weight true = 1 := rfl

@[simp] theorem weight_false : weight false = 0 := rfl

/-- A call goes from `x` to `y`, and the counters with it. -/
structure Tallied (m after : Metrics) (x : Option CallPhase) (y : CallPhase) : Prop where
  running : after.running + weight (x.any CallPhase.inside) = m.running + weight y.inside
  missing : after.missing + weight (x.any CallPhase.uncounted) = m.missing + weight y.uncounted

theorem Tallied.unchanged (m : Metrics) {x y : CallPhase} (inside : x.inside = y.inside)
    (uncounted : x.uncounted = y.uncounted) : Tallied m m (some x) y :=
  ⟨by rw [Option.any_some, inside], by rw [Option.any_some, uncounted]⟩

theorem recorded_running (m : Metrics) (outcome : CallOutcome) : (m.recorded outcome).running = m.running := by
  unfold Metrics.recorded
  split
  · split <;> rfl
  · rfl
  · split <;> rfl
  · rfl

theorem missing_error (m : Metrics) : m.error.missing = m.missing - 1 := by
  simp only [Metrics.missing, Metrics.error]
  omega

theorem uncounted_raised (exn : Exn) : (CallPhase.finished (.raised exn)).uncounted = !isException exn := by
  simp [CallPhase.uncounted, CallPhase.isWaiting, CallPhase.isCancelled, CallPhase.escaped]

/-- The end of a call is counted once, unless it is a cancellation or escapes. -/
theorem recorded_missing (m : Metrics) (outcome : CallOutcome) :
    (m.recorded outcome).missing = m.missing - 1 + weight (CallPhase.finished outcome).uncounted := by
  have counted (v : Val) : weight (CallPhase.finished (.returned v)).uncounted = 0 := rfl
  unfold Metrics.recorded
  split
  · rw [counted]
    split
    · simp only [Metrics.missing]
      omega
    · simp only [Metrics.missing]
      omega
    · rw [missing_error]
      omega
  · rw [counted, missing_error]
    omega
  · rename_i exn
    rw [uncounted_raised]
    cases caught : isException exn with
    | true =>
      rw [if_pos rfl, missing_error]
      simp
    | false => simp
  · have left : weight (CallPhase.finished .cancelled).uncounted = 1 := rfl
    rw [left]
    omega

theorem tallied_settled (m : Metrics) (permit : Option Nat) (p : Nat) (outcome : CallOutcome) :
    Tallied m (m.runEnds.recorded outcome) (some (.settled permit p outcome)) (.finished outcome) := by
  have ended : m.runEnds.missing = m.missing + 1 := by
    simp only [Metrics.missing, Metrics.runEnds]
    omega
  constructor
  · rw [recorded_running]
    exact (Int.sub_add_cancel m.running 1).trans (Int.add_zero _).symm
  · rw [recorded_missing, ended]
    simp [CallPhase.uncounted, CallPhase.isWaiting, CallPhase.isCancelled, CallPhase.escaped]

/-- `_submit` raises an `Exception` if it raises. -/
theorem submission_counted (b : Backend) (permit : Option Nat) : (b.submission permit).uncounted = false := by
  unfold Backend.submission
  split
  · rfl
  · split <;> rfl

theorem submission_clean (b : Backend) (permit : Option Nat) : (b.submission permit).clean = true := by
  unfold Backend.submission
  split
  · rfl
  · split <;> rfl

theorem clean_settled {permit : Option Nat} {p : Nat} {outcome : CallOutcome}
    (clean : (CallPhase.settled permit p outcome).clean = true) : (CallPhase.finished outcome).clean = true := by
  cases outcome with
  | raised exn => exact clean
  | returned | cancelled => rfl

/-- A call that goes into `_run_and_record`. -/
theorem submits_submission (m : Metrics) (b : Backend) (permit : Option Nat) :
    (m.submits (b.submission permit)).running = m.running + weight (b.submission permit).inside ∧
      (m.submits (b.submission permit)).missing = m.missing - 1 := by
  have counted := submission_counted b permit
  rcases Backend.submission_cases b permit with ⟨exn, raised⟩ | ⟨p, -, sent⟩
  · rw [raised] at counted ⊢
    have back : m.runBegins.runEnds = m := by
      simp only [Metrics.runBegins, Metrics.runEnds, Int.add_sub_cancel]
    rw [Metrics.submits, back, recorded_running, recorded_missing, counted]
    exact ⟨(Int.add_zero _).symm, Int.add_zero _⟩
  · rw [sent]
    refine ⟨rfl, ?_⟩
    simp only [Metrics.submits, Metrics.missing, Metrics.runBegins]
    omega

theorem missing_accepted (m : Metrics) : m.accepted.missing = m.missing + 1 := by
  simp only [Metrics.missing, Metrics.accepted]
  omega

theorem tallied_entered (m : Metrics) (b : Backend) (permit : Option Nat) :
    Tallied m (m.accepted.submits (b.submission permit)) none (b.submission permit) := by
  obtain ⟨running, missing⟩ := submits_submission m.accepted b permit
  constructor
  · rw [running]
    exact Int.add_zero _
  · rw [missing, missing_accepted, submission_counted]
    exact congrArg (· + 0) (Int.add_sub_cancel m.missing 1)

theorem tallied_woken (m : Metrics) (b : Backend) (s : Nat) (mustCancel : Bool) :
    Tallied m (m.submits (b.submission (some s))) (some (.waiting s mustCancel)) (b.submission (some s)) := by
  obtain ⟨running, missing⟩ := submits_submission m b (some s)
  constructor
  · rw [running]
    exact Int.add_zero _
  · rw [missing, submission_counted]
    exact (Int.sub_add_cancel m.missing 1).trans (Int.add_zero _).symm

/-! ### Every event -/

/-- What an event other than `start()` does to the calls and the counters. -/
inductive Recount (m after : Metered) (e : BackendEvent) : Prop
  | same (calls : after.backend.calls = m.backend.calls) (metrics : after.metrics = m.metrics)
  | added (y : CallPhase) (calls : after.backend.calls = m.backend.calls ++ [y])
      (tallied : Tallied m.metrics after.metrics none y) (clean : y.clean = true)
  | moved (c : Nat) (x y : CallPhase) (here : m.backend.calls[c]? = some x) (open_ : x.isOver = false)
      (calls : after.backend.calls = m.backend.calls.set c y)
      (tallied : Tallied m.metrics after.metrics (some x) y)
      (clean : m.lifetime e → x.clean = true → y.clean = true)

namespace Metered
variable {m after : Metered}

theorem recount_execute : Recount m ⟨m.backend.execute, m.measure .execute⟩ .execute := by
  unfold Backend.execute measure
  cases m.backend.pool with
  | none => exact .added (.finished (.raised notStarted)) rfl ⟨rfl, rfl⟩ rfl
  | some p =>
    cases m.backend.semaphore with
    | none => exact .added _ rfl (tallied_entered m.metrics m.backend none) (submission_clean m.backend none)
    | some s =>
      by_cases locked : m.backend.locked s = true
      · simp only [if_pos locked]
        refine .added (.waiting s false) rfl ⟨rfl, ?_⟩ rfl
        exact (Int.add_zero _).trans (missing_accepted m.metrics)
      · simp only [if_neg locked]
        exact .added _ rfl (tallied_entered m.metrics m.backend (some s)) (submission_clean m.backend (some s))

theorem recount_cancel (c : Nat) : Recount m ⟨m.backend.cancel c, m.metrics⟩ (.cancel c) := by
  unfold Backend.cancel
  cases here : m.backend.calls[c]? with
  | none => exact .same rfl rfl
  | some phase =>
    cases phase with
    | waiting s mustCancel =>
      by_cases granted : m.backend.ticket s c = some .granted
      · simp only [if_pos granted]
        exact .moved c _ (.waiting s true) here rfl rfl (.unchanged _ rfl rfl) fun _ _ => rfl
      · simp only [if_neg granted]
        exact .same rfl rfl
    | submitted permit p =>
      exact .moved c _ (.settled permit p .cancelled) here rfl rfl (.unchanged _ rfl rfl) fun _ _ => rfl
    | settled permit p outcome =>
      exact .moved c _ (.settled permit p .cancelled) here rfl rfl (.unchanged _ rfl rfl) fun _ _ => rfl
    | finished outcome => exact .same rfl rfl

theorem recount_workEnds {c : Nat} {outcome : CallOutcome} {b : Backend}
    (taken : m.backend.workEnds c outcome = some b) : Recount m ⟨b, m.metrics⟩ (.workEnds c outcome) := by
  unfold Backend.workEnds at taken
  split at taken
  · rename_i permit p here
    obtain rfl := Option.some.inj taken
    refine .moved c _ (.settled permit p outcome) here rfl rfl (.unchanged _ rfl rfl) fun allowed _ => ?_
    cases outcome with
    | raised exn => exact allowed
    | returned | cancelled => rfl
  · cases taken

theorem measure_settled {c : Nat} {permit : Option Nat} {p : Nat} {outcome : CallOutcome}
    (here : m.backend.calls[c]? = some (.settled permit p outcome)) :
    m.measure (.resume c) = m.metrics.runEnds.recorded outcome := by
  simp only [measure, here]

theorem measure_woken {c s : Nat} (here : m.backend.calls[c]? = some (.waiting s false))
    (granted : m.backend.ticket s c = some .granted) :
    m.measure (.resume c) = m.metrics.submits (m.backend.submission (some s)) := by
  simp only [measure, here, if_pos granted]

theorem measure_left {c s : Nat} {mustCancel : Bool} (here : m.backend.calls[c]? = some (.waiting s mustCancel))
    (left : mustCancel = true ∨ m.backend.ticket s c ≠ some .granted) : m.measure (.resume c) = m.metrics := by
  cases mustCancel with
  | true => simp only [measure, here]
  | false =>
    have refused := left.resolve_left (by decide)
    simp only [measure, here, if_neg refused]

theorem recount_resume {c : Nat} {b : Backend} (taken : m.backend.resume c = some b) :
    Recount m ⟨b, m.measure (.resume c)⟩ (.resume c) := by
  unfold Backend.resume at taken
  cases here : m.backend.calls[c]? with
  | none =>
    rw [here] at taken
    cases taken
  | some phase =>
    rw [here] at taken
    cases phase with
    | submitted | finished => cases taken
    | settled permit p outcome =>
      have tallied := tallied_settled m.metrics permit p outcome
      rw [← measure_settled here] at tallied
      cases permit with
      | none =>
        obtain rfl := Option.some.inj taken
        exact .moved c _ _ here rfl rfl tallied (fun _ => clean_settled)
      | some s =>
        obtain rfl := Option.some.inj taken
        exact .moved c _ _ here rfl rfl tallied (fun _ => clean_settled)
    | waiting s mustCancel =>
      cases found : m.backend.ticket s c with
      | none => simp [found] at taken
      | some ticket =>
        cases ticket with
        | pending => simp [found] at taken
        | granted =>
          cases mustCancel with
          | true =>
            simp only [found, if_true] at taken
            obtain rfl := Option.some.inj taken
            rw [measure_left here (.inl rfl)]
            exact .moved c _ (.finished .cancelled) here rfl rfl (.unchanged _ rfl rfl) fun _ _ => rfl
          | false =>
            simp only [found, Bool.false_eq_true, if_false] at taken
            obtain rfl := Option.some.inj taken
            rw [measure_woken here found]
            exact .moved c _ _ here rfl rfl (tallied_woken m.metrics m.backend s false)
              fun _ _ => submission_clean m.backend (some s)
        | cancelled =>
          simp only [found] at taken
          obtain rfl := Option.some.inj taken
          rw [measure_left here (.inr (by rw [found]; decide))]
          exact .moved c _ (.finished .cancelled) here rfl rfl (.unchanged _ rfl rfl) fun _ _ => rfl

theorem recount_perform {e : BackendEvent} (running : e ≠ .start) (taken : m.perform e = some after) :
    Recount m after e := by
  obtain ⟨b, performed, rfl⟩ := Option.map_eq_some_iff.mp taken
  cases e with
  | start => exact absurd rfl running
  | stop | crash =>
    obtain rfl := Option.some.inj performed
    exact .same rfl rfl
  | stopReturns p =>
    simp only [Backend.perform, Backend.stopReturns] at performed
    split at performed
    · obtain rfl := Option.some.inj performed
      exact .same rfl rfl
    · cases performed
  | execute =>
    obtain rfl := Option.some.inj performed
    exact recount_execute
  | cancel c =>
    obtain rfl := Option.some.inj performed
    exact recount_cancel c
  | workEnds c outcome => exact recount_workEnds performed
  | resume c => exact recount_resume performed

end Metered

/-! ### One lifetime -/

/-- The calls made since `old` were made, and the counters of these calls. -/
structure Accounted (old : List CallPhase) (m : Metered) (mine : List CallPhase) : Prop where
  calls : m.backend.calls = old ++ mine
  running : m.metrics.running = mine.countP CallPhase.inside
  missing : m.metrics.missing = mine.countP CallPhase.uncounted
  clean : ∀ phase ∈ mine, phase.clean = true

theorem count_added (mine : List CallPhase) (y : CallPhase) (f : CallPhase → Bool) :
    ((mine ++ [y]).countP f : Int) = mine.countP f + weight (f y) := by
  rw [List.countP_append, List.countP_singleton, Int.natCast_add]
  cases f y <;> rfl

theorem count_moved {mine : List CallPhase} {c : Nat} {x : CallPhase} (here : mine[c]? = some x) (y : CallPhase)
    (f : CallPhase → Bool) : ((mine.set c y).countP f : Int) + weight (f x) = mine.countP f + weight (f y) := by
  have counted := (Backend.rewritten_set here y).count f
  rw [here, Option.any_some] at counted
  cases was : f x <;> cases is : f y <;> simp only [was, is, if_true, Bool.false_eq_true, if_false] at counted <;>
    simp only [weight_true, weight_false] <;> omega

theorem Accounted.recount {old mine : List CallPhase} {m after : Metered} {e : BackendEvent}
    (over_ : ∀ phase ∈ old, phase.isOver = true) (ok : Accounted old m mine) (allowed : m.lifetime e)
    (step : Recount m after e) : ∃ later, Accounted old after later := by
  cases step with
  | same calls metrics =>
    refine ⟨mine, calls.trans ok.calls, ?_, ?_, ok.clean⟩
    · rw [metrics, ok.running]
    · rw [metrics, ok.missing]
  | added y calls tallied clean =>
    refine ⟨mine ++ [y], ?_, ?_, ?_, ?_⟩
    · rw [calls, ok.calls, List.append_assoc]
    · rw [count_added, ← ok.running]
      exact (Int.add_zero _).symm.trans tallied.running
    · rw [count_added, ← ok.missing]
      exact (Int.add_zero _).symm.trans tallied.missing
    · intro phase member
      rcases List.mem_append.mp member with earlier | last
      · exact ok.clean phase earlier
      · exact List.mem_singleton.mp last ▸ clean
  | moved c x y here open_ calls tallied clean =>
    rw [ok.calls] at here
    have new : old.length ≤ c := by
      by_contra before
      rw [List.getElem?_append_left (Nat.lt_of_not_le before)] at here
      cases open_.symm.trans (over_ x (List.mem_of_getElem? here))
    rw [List.getElem?_append_right new] at here
    have running := count_moved here y CallPhase.inside
    have missing := count_moved here y CallPhase.uncounted
    refine ⟨mine.set (c - old.length) y, ?_, ?_, ?_, ?_⟩
    · rw [calls, ok.calls, List.set_append_right _ _ new]
    · have tally := tallied.running
      rw [Option.any_some, ok.running] at tally
      omega
    · have tally := tallied.missing
      rw [Option.any_some, ok.missing] at tally
      omega
    · intro phase member
      rcases List.mem_or_eq_of_mem_set member with earlier | rfl
      · exact ok.clean phase earlier
      · exact clean allowed (ok.clean x (List.mem_of_getElem? here))

theorem accounted_of_steps {m₀ m : Metered} (quiet : ∀ phase ∈ m₀.backend.calls, phase.isOver = true)
    (run : Steps Metered.perform Metered.lifetime m₀.start m) : ∃ mine, Accounted m₀.backend.calls m mine := by
  refine run.invariant (I := fun m => ∃ mine, Accounted m₀.backend.calls m mine) ?_ ?_
  · refine ⟨[], ?_, rfl, rfl, nofun⟩
    simp only [Metered.start, Backend.start, List.append_nil]
    cases m₀.backend.maxInFlight <;> rfl
  · rintro m e after ⟨mine, ok⟩ allowed taken
    refine ok.recount quiet allowed (Metered.recount_perform ?_ taken)
    rintro rfl
    exact allowed

theorem escaped_of_clean {phase : CallPhase} (clean : phase.clean = true) : phase.escaped = false := by
  cases phase with
  | waiting | submitted | settled => rfl
  | finished outcome =>
    cases outcome with
    | returned | cancelled => rfl
    | raised exn =>
      have caught : isException exn = true := clean
      simp [CallPhase.escaped, caught]

/-- The counters balance in every state of one lifetime: `mine` are the calls made since
the `start()`, of which no earlier one was still suspended. -/
theorem metrics_balanced {m₀ m : Metered} (quiet : ∀ phase ∈ m₀.backend.calls, phase.isOver = true)
    (run : Steps Metered.perform Metered.lifetime m₀.start m) :
    let mine := m.backend.calls.drop m₀.backend.calls.length
    m.metrics.submitted = mine.countP CallPhase.isWaiting + m.metrics.running + m.metrics.completed +
      m.metrics.failed + m.metrics.backendErrors + mine.countP CallPhase.isCancelled ∧
    m.metrics.running = mine.countP CallPhase.inside ∧
    0 ≤ m.metrics.running ∧
    ((∀ phase ∈ mine, phase.isOver = true) → m.metrics.running = 0) := by
  obtain ⟨mine, ok⟩ := accounted_of_steps quiet run
  have named : m.backend.calls.drop m₀.backend.calls.length = mine := by rw [ok.calls, List.drop_left]
  have running := ok.running
  have missing := ok.missing
  have escaped : mine.countP CallPhase.escaped = 0 := by
    rw [List.countP_eq_zero]
    intro phase member
    simp [escaped_of_clean (ok.clean phase member)]
  rw [countP_uncounted, escaped, Metrics.missing] at missing
  rw [named]
  refine ⟨by omega, running, by omega, ?_⟩
  intro done
  have none : mine.countP CallPhase.inside = 0 := by
    rw [List.countP_eq_zero]
    intro phase member
    cases phase with
    | waiting | submitted | settled => cases done _ member
    | finished => simp [CallPhase.inside]
  rw [running, none]
  rfl

/-- A call that succeeds, one whose child process dies, one cancelled in the queue and
one turned away by the broken pool. -/
theorem fourCalls_balanced : ∃ m, Steps Metered.perform Metered.lifetime
      (Metered.mk (.created (some 1)) .zero).start m ∧
    (m.metrics = ⟨4, 0, 1, 0, 2⟩ ∧ m.backend.calls.map CallPhase.isOver = [true, true, true, true]) ∧
    m.metrics.submitted = (m.backend.calls.drop 0).countP CallPhase.isWaiting + m.metrics.running +
      m.metrics.completed + m.metrics.failed + m.metrics.backendErrors +
      (m.backend.calls.drop 0).countP CallPhase.isCancelled := by
  have reached : ∃ m, Steps Metered.perform Metered.lifetime
      (Metered.mk (.created (some 1)) .zero).start m ∧
      m.metrics = ⟨4, 0, 1, 0, 2⟩ ∧ m.backend.calls.map CallPhase.isOver = [true, true, true, true] := replay_reaches
    [.execute, .execute, .execute, .cancel 2, .workEnds 0 (.returned (.dict [(.str "status", .str "success")])),
      .resume 0, .resume 2, .resume 1, .crash 0, .workEnds 1 (.raised brokenPool), .resume 1, .execute, .stop]
    (by decide)
  obtain ⟨m, run, shape⟩ := reached
  exact ⟨m, run, shape, (@metrics_balanced ⟨.created (some 1), .zero⟩ m nofun run).1⟩

end DistributedCompute
