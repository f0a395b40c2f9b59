import DistributedCompute.Backend

/-! The in-flight cap of `MultiprocessingBackend` over all its lifetimes. A call waits
for a permit of the semaphore it found, but is submitted to the pool of the moment at
which it is woken; so the cap and the refusal of calls that a `stop()` found waiting
both rest on nobody waiting when the backend is started again. -/
namespace DistributedCompute
open Py Semaphores Transition

namespace Backend
section Lifetimes
variable {k : Nat} {b after : Backend} {c : Nat} {y : CallPhase}

/-! ### The calls of one lifetime -/

/-- While a pool is there, the calls submitted to it hold permits of its own semaphore,
and those that may still be submitted wait for one. -/
structure Aligned (b : Backend) : Prop where
  inside : ∀ p s, b.pool = some p → b.semaphore = some s → ∀ phase ∈ b.calls,
    phase.inPool p = true → phase.holds s = true
  waiting : ∀ p s, b.pool = some p → b.semaphore = some s → ∀ (c r : Nat), b.calls[c]? = some (.waiting r false) →
    b.ticket r c ≠ some .cancelled → r = s

variable {w s p : Nat}

theorem Exchange.ticket_cancelled (step : Exchange b after c y) {r : Nat} (held : b.ticket r w = some .cancelled)
    (still : w = c → y.waits r = true) : after.ticket r w = some .cancelled := by
  obtain ⟨sem, there, cancelled⟩ := ticket_eq held
  obtain ⟨inside, -⟩ := List.getElem?_eq_some_iff.mp there
  unfold ticket
  cases later : after.semaphores[r]? with
  | none =>
    have outside := List.getElem?_eq_none_iff.mp later
    rw [step.size] at outside
    exact absurd inside (Nat.not_lt_of_le outside)
  | some sem' =>
    obtain ⟨old, before, trade⟩ := step.traded r sem' later
    obtain rfl := Option.some.inj (there.symm.trans before)
    by_cases same : w = c
    · subst same
      exact trade.cancelled (still rfl) cancelled
    · exact (trade.others w same).cancelled cancelled

theorem holds_of_inPool (inside : (b.submission (some s)).inPool p = true) :
    (b.submission (some s)).holds s = true := by
  rcases submission_cases b (some s) with ⟨exn, raised⟩ | ⟨q, -, sent⟩
  · rw [raised] at inside
    cases inside
  · rw [sent]
    exact decide_eq_true rfl

theorem Aligned.exchange (ok : Aligned b) (step : Exchange b after c y) : Aligned after := by
  have successor := step.successor
  constructor
  · intro p s running current phase member inPool
    rw [step.pool] at running
    rw [step.semaphore] at current
    rcases step.calls.mem member with rfl | old
    · generalize at_ : b.calls[c]? = x at successor
      cases successor with
      | refused | queued | marked | left | finished => cases inPool
      | uncapped _ off => cases off.symm.trans current
      | entered _ current' =>
        obtain rfl := Option.some.inj (current.symm.trans current')
        exact holds_of_inPool inPool
      | @woken r granted =>
        have live : b.ticket r c ≠ some .cancelled := by
          rw [granted]
          decide
        obtain rfl := ok.waiting p s running current c r at_ live
        exact holds_of_inPool inPool
      | kept => exact ok.inside p s running current _ (List.mem_of_getElem? at_) inPool
      | ended | overruled =>
        have held := ok.inside p s running current _ (List.mem_of_getElem? at_) inPool
        exact held
    · exact ok.inside p s running current phase old inPool
  · intro p s running current w r there live
    rw [step.pool] at running
    rw [step.semaphore] at current
    rw [step.calls.call] at there
    split at there
    · rename_i same
      subst same
      have waiting := Option.some.inj there
      rcases successor.waiting waiting with current' | before
      · exact Option.some.inj (current'.symm.trans current)
      · refine ok.waiting p s running current w r (before.trans there) fun cancelled => live ?_
        refine step.ticket_cancelled cancelled fun _ => ?_
        rw [waiting]
        exact decide_eq_true rfl
    · rename_i other
      refine ok.waiting p s running current w r there fun cancelled => live ?_
      exact step.ticket_cancelled cancelled fun same => absurd same other

theorem ticket_start (ok : Sound k b) {m : Bool} (here : b.calls[w]? = some (.waiting s m)) :
    b.start.ticket s w = b.ticket s w := by
  have inside := ok.knownSemaphore _ (List.mem_of_getElem? here) s (.inl (decide_eq_true rfl))
  unfold ticket Backend.start
  rw [ok.cap]
  show ((b.semaphores ++ [.create k])[s]?).bind _ = _
  rw [List.getElem?_append_left inside]

theorem cancelled_of_quiet (quiet : b.quietStart .start) (here : b.calls[w]? = some (.waiting s false)) :
    b.ticket s w = some .cancelled := by
  obtain ⟨inside, -⟩ := List.getElem?_eq_some_iff.mp here
  have settled := quiet w inside
  rw [liveWaiter, here] at settled
  simpa using settled

theorem Aligned.change {e : BackendEvent} (sound : Sound k b) (ok : Aligned b) (quiet : b.quietStart e)
    (change : Change b e after) : Aligned after := by
  cases change with
  | start =>
    have calls : b.start.calls = b.calls := by
      unfold Backend.start
      rw [sound.cap]
    have pool : b.start.pool = some b.pools.length := by
      unfold Backend.start
      rw [sound.cap]
    constructor
    · intro p s running current phase member inPool
      obtain rfl := Option.some.inj (pool.symm.trans running)
      rw [calls] at member
      exact absurd (sound.knownPool phase member _ inPool) (Nat.lt_irrefl _)
    · intro p s running current w r there live
      rw [calls] at there
      rw [ticket_start sound there] at live
      exact absurd (cancelled_of_quiet quiet there) live
  | stop => exact ⟨fun p s running => (by cases running), fun p s running => (by cases running)⟩
  | aside pools size shutdowns => exact ⟨ok.inside, ok.waiting⟩
  | exchange step => exact ok.exchange step

theorem aligned_of_steps (run : Steps perform quietStart (created (some k)) b) : Aligned b := by
  refine run.invariant_with (fun _ => sound_of_steps) ⟨?_, ?_⟩ fun t e u sound ok quiet taken =>
    ok.change sound quiet (sound.change_of_perform taken)
  · intro p s running
    cases running
  · intro p s running
    cases running

theorem Aligned.capped (sound : Sound k b) (ok : Aligned b) (running : b.pool = some p) :
    b.calls.countP (·.inPool p) ≤ k := by
  obtain ⟨-, s, current, inside⟩ := sound.current p running
  calc b.calls.countP (·.inPool p)
      ≤ b.calls.countP (·.holds s) :=
        List.countP_mono_left fun phase member => ok.inside p s running current phase member
    _ ≤ k := Nat.le_of_add_left_le (sound.conserved s _ (List.getElem?_eq_getElem inside)).le

/-! ### Calls that a stop finds waiting -/

/-- The call has ended with `RuntimeError` or cancellation, or can only end so. -/
def Dismissed (b : Backend) (c : Nat) : Prop :=
  ∃ phase, b.calls[c]? = some phase ∧
    (phase = .finished (.raised notStarted) ∨ phase = .finished .cancelled ∨
      ∃ s mustCancel, phase = .waiting s mustCancel ∧
        (b.pool = none ∨ mustCancel = true ∨ b.ticket s c = some .cancelled))

theorem Dismissed.exchange (ok : Dismissed b w) (step : Exchange b after c y) : Dismissed after w := by
  obtain ⟨phase, here, ends⟩ := ok
  by_cases same : w = c
  · subst same
    refine ⟨y, by rw [step.calls.call, if_pos rfl], ?_⟩
    have successor := step.successor
    rw [here] at successor
    rcases ends with rfl | rfl | ⟨s, mustCancel, rfl, reason⟩
    · cases successor
      exact .inl rfl
    · cases successor
      exact .inr (.inl rfl)
    · cases successor with
      | woken granted =>
        rcases reason with stopped | marked | cancelled
        · refine .inl ?_
          rw [submission, stopped]
        · cases marked
        · cases granted.symm.trans cancelled
      | marked => exact .inr (.inr ⟨s, true, rfl, .inr (.inl rfl)⟩)
      | kept =>
        refine .inr (.inr ⟨s, mustCancel, rfl, ?_⟩)
        rw [step.pool]
        exact reason.imp id (Or.imp id fun cancelled => step.ticket_cancelled cancelled fun _ => decide_eq_true rfl)
      | left => exact .inr (.inl rfl)
  · refine ⟨phase, by rw [step.calls.call, if_neg same, here], ?_⟩
    refine ends.imp id (Or.imp id ?_)
    rintro ⟨s, mustCancel, waiting, reason⟩
    refine ⟨s, mustCancel, waiting, ?_⟩
    rw [step.pool]
    exact reason.imp id (Or.imp id fun cancelled => step.ticket_cancelled cancelled fun at_ => absurd at_ same)

theorem Dismissed.change {e : BackendEvent} (sound : Sound k b) (ok : Dismissed b w) (quiet : b.quietStart e)
    (change : Change b e after) : Dismissed after w := by
  cases change with
  | start =>
    obtain ⟨phase, here, ends⟩ := ok
    have calls : b.start.calls = b.calls := by
      unfold Backend.start
      rw [sound.cap]
    refine ⟨phase, by rw [calls, here], ends.imp id (Or.imp id ?_)⟩
    rintro ⟨s, mustCancel, rfl, -⟩
    refine ⟨s, mustCancel, rfl, .inr ?_⟩
    cases mustCancel with
    | true => exact .inl rfl
    | false =>
      refine .inr ?_
      rw [ticket_start sound here]
      exact cancelled_of_quiet quiet here
  | stop =>
    obtain ⟨phase, here, ends⟩ := ok
    refine ⟨phase, here, ends.imp id (Or.imp id ?_)⟩
    rintro ⟨s, mustCancel, waiting, -⟩
    exact ⟨s, mustCancel, waiting, .inl rfl⟩
  | aside pools size shutdowns => exact ok
  | exchange step => exact ok.exchange step

theorem Dismissed.not_inPool (ok : Dismissed b w) (p : Nat) : (b.calls[w]?).any (·.inPool p) = false := by
  obtain ⟨phase, here, ends⟩ := ok
  rw [here]
  rcases ends with rfl | rfl | ⟨s, mustCancel, rfl, -⟩ <;> rfl

theorem dismissed_of_steps {start later : Backend} (sound : Sound k start) (ok : Dismissed start w)
    (run : Steps perform quietStart start later) : Sound k later ∧ Dismissed later w := by
  refine run.invariant (I := fun t => Sound k t ∧ Dismissed t w) ⟨sound, ok⟩ ?_
  intro t e u both quiet taken
  have change := both.1.change_of_perform taken
  exact ⟨both.1.change change, both.2.change both.1 quiet change⟩

/-! ### Every call can end -/

/-- The steps that need nobody but the pools and the event loop. -/
def ownStep (_ : Backend) : BackendEvent → Prop
  | .workEnds _ _ | .resume _ => True
  | _ => False

theorem ownStep_quiet (b : Backend) (e : BackendEvent) (own : ownStep b e) : b.quietStart e := by
  cases e with
  | start => cases own
  | stop | stopReturns | execute | cancel | workEnds | crash | resume => trivial

/-- Bounds the steps of its own that the backend can take. -/
def load (b : Backend) : Nat :=
  b.calls.countP (fun phase => 0 < phase.remaining) + b.calls.countP (fun phase => 1 < phase.remaining) +
    b.calls.countP (fun phase => 2 < phase.remaining)

theorem Exchange.load_lt {x : CallPhase} (step : Exchange b after c y) (here : b.calls[c]? = some x)
    (less : y.remaining < x.remaining) : after.load < b.load := by
  have small : x.remaining ≤ 3 := by cases x <;> simp [CallPhase.remaining]
  have zero := step.calls.count (fun phase => 0 < phase.remaining)
  have one := step.calls.count (fun phase => 1 < phase.remaining)
  have two := step.calls.count (fun phase => 2 < phase.remaining)
  simp only [here, Option.any_some, decide_eq_true_eq] at zero one two
  unfold load
  split at zero <;> split at zero <;> split at one <;> split at one <;> split at two <;> split at two <;> omega

theorem resume_of_ticket {mustCancel : Bool} {t : Ticket} (here : b.calls[c]? = some (.waiting s mustCancel))
    (found : b.ticket s c = some t) (called : t ≠ .pending) :
    ∃ later, b.resume c = some later := by
  unfold Backend.resume
  rw [here]
  cases t with
  | pending => exact absurd rfl called
  | granted => cases mustCancel <;> simp [found]
  | cancelled => simp [found]

/-- A granted ticket belongs to a call that can go on. -/
theorem Sound.resume_of_granted (ok : Sound k b) {sem : Semaphore Nat} (there : b.semaphores[s]? = some sem)
    (granted : sem.waiters.get? w = some .granted) :
    ∃ later, b.resume w = some later := by
  have queued := ok.queued s sem w there
  rw [granted] at queued
  obtain ⟨phase, here, waits⟩ := (Option.any_eq_true ..).mp queued.symm
  cases phase with
  | waiting r mustCancel =>
    obtain rfl : r = s := of_decide_eq_true waits
    have found : b.ticket r w = some .granted := by rw [ticket, there]; exact granted
    exact resume_of_ticket here found (by decide)
  | submitted | settled | finished => cases waits

/-- Some call can go on, and then has less left to do. -/
def CanGoOn (b : Backend) : Prop :=
  ∃ e later, ownStep b e ∧ b.perform e = some later ∧ later.load < b.load

theorem Sound.canGoOn_of_resume (ok : Sound k b) (enabled : ∃ later, b.resume c = some later) : b.CanGoOn := by
  obtain ⟨later, taken⟩ := enabled
  obtain ⟨x, y, here, less, step⟩ := ok.resume taken
  exact ⟨.resume c, later, trivial, taken, step.load_lt here less⟩

theorem Sound.canGoOn_of_submitted (ok : Sound k b) {permit : Option Nat}
    (here : b.calls[c]? = some (.submitted permit p)) : b.CanGoOn := by
  have taken : b.workEnds c .cancelled = some (b.setCall c (.settled permit p .cancelled)) := by
    rw [Backend.workEnds, here]
  obtain ⟨x, y, at_, less, step⟩ := ok.workEnds taken
  exact ⟨.workEnds c .cancelled, _, trivial, taken, step.load_lt at_ less⟩

theorem Sound.canGoOn_of_settled (ok : Sound k b) {permit : Option Nat} {outcome : CallOutcome}
    (here : b.calls[c]? = some (.settled permit p outcome)) : b.CanGoOn := by
  apply ok.canGoOn_of_resume (c := c)
  unfold Backend.resume
  rw [here]
  cases permit <;> exact ⟨_, rfl⟩

/-- A call that waits is behind a granted ticket or behind a call that holds a permit. -/
theorem Sound.canGoOn_of_waiting (ok : Sound k b) (positive : 0 < k) {mustCancel : Bool}
    (here : b.calls[c]? = some (.waiting s mustCancel)) : b.CanGoOn := by
  have inside := ok.knownSemaphore _ (List.mem_of_getElem? here) s (.inl (decide_eq_true rfl))
  have there : b.semaphores[s]? = some b.semaphores[s] := List.getElem?_eq_getElem inside
  generalize b.semaphores[s] = sem at there
  have queued := ok.queued s sem c there
  rw [here] at queued
  obtain ⟨t, held⟩ := Option.isSome_iff_exists.mp (queued.trans (decide_eq_true rfl))
  have found : b.ticket s c = some t := by rw [ticket, there]; exact held
  by_cases called : t = .pending
  · subst called
    by_cases granted : sem.hasTicket .granted = true
    · obtain ⟨w, taken⟩ := Semaphore.hasTicket_iff.mp granted
      exact ok.canGoOn_of_resume (ok.resume_of_granted there taken)
    · have empty : sem.value = 0 := by
        by_contra free
        exact granted (ok.served s sem there (Nat.pos_of_ne_zero free) (Semaphore.hasTicket_iff.mpr ⟨c, held⟩))
      have nobody : sem.waiters.values.count .granted = 0 :=
        Semaphore.count_of_no_ticket fun w taken => granted (Semaphore.hasTicket_iff.mpr ⟨w, taken⟩)
      have total := ok.conserved s sem there
      have holders : 0 < b.calls.countP (·.holds s) := by
        rw [Semaphore.permits, empty, nobody] at total
        omega
      obtain ⟨holder, member, holds⟩ := List.countP_pos_iff.mp holders
      obtain ⟨w, place⟩ := List.getElem?_of_mem member
      cases holder with
      | waiting | finished => cases holds
      | submitted permit p => exact ok.canGoOn_of_submitted place
      | settled permit p outcome => exact ok.canGoOn_of_settled place
  · exact ok.canGoOn_of_resume (resume_of_ticket here found called)

/-- Nothing is stuck while a call has not ended. -/
theorem Sound.canGoOn (ok : Sound k b) (positive : 0 < k) {x : CallPhase} (here : b.calls[c]? = some x)
    (unfinished : x.isOver = false) : b.CanGoOn := by
  cases x with
  | waiting s mustCancel => exact ok.canGoOn_of_waiting positive here
  | submitted permit p => exact ok.canGoOn_of_submitted here
  | settled permit p outcome => exact ok.canGoOn_of_settled here
  | finished outcome => cases unfinished

theorem Sound.drains (ok : Sound k b) (positive : 0 < k) :
    ∃ later, Steps perform ownStep b later ∧ Sound k later ∧ ∀ phase ∈ later.calls, phase.isOver = true := by
  induction size : b.load using Nat.strong_induction_on generalizing b with
  | _ n ih =>
    by_cases done : ∀ phase ∈ b.calls, phase.isOver = true
    · exact ⟨b, .refl, ok, done⟩
    · obtain ⟨phase, rest⟩ := not_forall.mp done
      obtain ⟨member, unfinished⟩ := Classical.not_imp.mp rest
      obtain ⟨c, here⟩ := List.getElem?_of_mem member
      obtain ⟨e, next, own, taken, less⟩ := ok.canGoOn positive here (Bool.eq_false_iff.mpr unfinished)
      obtain ⟨later, run, sound, all⟩ := ih next.load (size ▸ less) (ok.change (ok.change_of_perform taken)) rfl
      exact ⟨later, (Steps.snoc .refl own taken).trans run, sound, all⟩

/-- With every call over, every permit is back. -/
theorem Sound.value_of_over (ok : Sound k b) (done : ∀ phase ∈ b.calls, phase.isOver = true) {sem : Semaphore Nat}
    (there : b.semaphores[s]? = some sem) : sem.value = k := by
  have total := ok.conserved s sem there
  have holders : b.calls.countP (·.holds s) = 0 := by
    rw [List.countP_eq_zero]
    intro phase member
    cases phase with
    | waiting | submitted | settled => cases done _ member
    | finished => simp [CallPhase.holds]
  have granted : sem.waiters.values.count .granted = 0 := by
    apply Semaphore.count_of_no_ticket
    intro w held
    have queued := ok.queued s sem w there
    rw [held] at queued
    obtain ⟨phase, here, waits⟩ := (Option.any_eq_true ..).mp queued.symm
    have over_ := done phase (List.mem_of_getElem? here)
    cases phase with
    | waiting | submitted | settled => cases over_
    | finished => cases waits
  rw [Semaphore.permits, holders, granted] at total
  omega

end Lifetimes

/-- The cap over all lifetimes, as long as `start()` is not called over the heads of
waiting calls: no more than `k` calls are in the pool, permits are conserved and all
come back, and a call that a `stop()` finds waiting ends with `RuntimeError` or
cancellation. -/
theorem in_flight_capped {k : Nat} (positive : 0 < k) {b : Backend}
    (run : Steps perform quietStart (created (some k)) b) :
    (∀ p, b.pool = some p → b.calls.countP (·.inPool p) ≤ k) ∧
    (∀ (s : Nat) (sem : Semaphore Nat), b.semaphores[s]? = some sem →
      sem.permits + b.calls.countP (·.holds s) = k) ∧
    (∃ later, Steps perform ownStep b later ∧ (∀ phase ∈ later.calls, phase.isOver = true) ∧
      ∀ sem ∈ later.semaphores, sem.value = k) ∧
    (∀ (c s : Nat) (mustCancel : Bool) (later : Backend), b.calls[c]? = some (.waiting s mustCancel) →
      Steps perform quietStart b.stop later →
        (∀ p, (later.calls[c]?).any (·.inPool p) = false) ∧
        ∃ last, Steps perform ownStep later last ∧
          (last.calls[c]? = some (.finished (.raised notStarted)) ∨
            last.calls[c]? = some (.finished .cancelled))) := by
  have sound := sound_of_steps run
  refine ⟨fun p running => (aligned_of_steps run).capped sound running, sound.conserved, ?_, ?_⟩
  · obtain ⟨later, drained, settled, done⟩ := sound.drains positive
    refine ⟨later, drained, done, fun sem member => ?_⟩
    obtain ⟨s, there⟩ := List.getElem?_of_mem member
    exact settled.value_of_over done there
  · intro c s mustCancel later here rest
    have stopped : Dismissed b.stop c := ⟨_, here, .inr (.inr ⟨s, mustCancel, rfl, .inl rfl⟩)⟩
    obtain ⟨soundLater, dismissed⟩ := dismissed_of_steps (sound.change .stop) stopped rest
    refine ⟨fun p => dismissed.not_inPool p, ?_⟩
    obtain ⟨last, drained, -, done⟩ := soundLater.drains positive
    refine ⟨last, drained, ?_⟩
    obtain ⟨-, phase, there, ends⟩ := dismissed_of_steps soundLater dismissed (drained.mono ownStep_quiet)
    rcases ends with rfl | rfl | ⟨s, mustCancel, rfl, -⟩
    · exact .inl there
    · exact .inr there
    · cases done _ (List.mem_of_getElem? there)

/-- A backend that is restarted after the waiting call was turned away. -/
theorem restarted_backend_capped :
    ∃ b, Steps perform quietStart (created (some 1)) b ∧
      (b.pool = some 1 ∧ b.calls.map CallPhase.isOver = [true, true, false]) ∧
      b.calls.countP (CallPhase.inPool 1) ≤ 1 := by
  have reached : ∃ b, Steps perform quietStart (created (some 1)) b ∧
      b.pool = some 1 ∧ b.calls.map CallPhase.isOver = [true, true, false] := replay_reaches
    [.start, .execute, .execute, .stop, .workEnds 0 .cancelled, .resume 0, .resume 1, .stopReturns 0, .start,
      .execute] (by decide)
  obtain ⟨b, run, shape⟩ := reached
  exact ⟨b, run, shape, (in_flight_capped (by decide) run).1 1 shape.1⟩

/-- A crash recovery: the second call still waits when the backend is stopped, and is
woken after it was started again. -/
theorem restart_exceeds_cap :
    ∃ t u, Steps perform sequential (created (some 1)) t ∧ Steps perform sequential t u ∧
      ((t.calls[1]?).any (CallPhase.waits 0) = true ∧ t.pool = none ∧ u.pool = some 1 ∧
        (u.calls[1]?).any (CallPhase.inPool 1) = true ∧ u.calls.countP (CallPhase.inPool 1) = 2) :=
  replay_twice
    [.start, .execute, .execute, .crash 0, .workEnds 0 (.raised brokenPool), .resume 0, .stop]
    [.stopReturns 0, .start, .resume 1, .execute] (by decide)

end Backend
end DistributedCompute
