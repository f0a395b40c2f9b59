import DistributedCompute.Dict

/-! Counting semaphores of one event loop, with the first waiter served first. A
release hands the permit to the first waiter that is still pending; that waiter holds
a granted ticket until it runs again, and stays in the queue until then. A waiter may
be cancelled at any time. -/
namespace Semaphores
open Py

inductive Ticket
  | pending
  | granted
  | cancelled
  deriving DecidableEq, Repr

structure Semaphore (ω : Type*) where
  value : Nat
  waiters : Dict ω Ticket

namespace Semaphore
variable {ω : Type*}

def create (value : Nat) : Semaphore ω := ⟨value, ∅⟩

def hasTicket (sem : Semaphore ω) (t : Ticket) : Bool := t ∈ sem.waiters.values

def locked (sem : Semaphore ω) : Bool := sem.value = 0 || sem.waiters.values.any (· ≠ .cancelled)

/-- The permits that no waiter has taken up yet. -/
def permits (sem : Semaphore ω) : Nat := sem.value + sem.waiters.values.count .granted

variable [DecidableEq ω]

def wakeUpNext (sem : Semaphore ω) : Semaphore ω :=
  match sem.waiters.entries.find? (fun e => e.2 = .pending) with
  | some (w, _) => ⟨sem.value - 1, sem.waiters.modify w (fun _ => .granted)⟩
  | none => sem

def release (sem : Semaphore ω) : Semaphore ω := wakeUpNext { sem with value := sem.value + 1 }

/-- `acquire` on a semaphore that is not locked. -/
def take (sem : Semaphore ω) : Semaphore ω := { sem with value := sem.value - 1 }

/-- `acquire` on a locked semaphore. -/
def enqueue (sem : Semaphore ω) (w : ω) : Semaphore ω := { sem with waiters := sem.waiters.insert w .pending }

def leave (sem : Semaphore ω) (w : ω) : Semaphore ω := { sem with waiters := sem.waiters.erase w }

/-- A waiter with a granted ticket runs again and has the permit. -/
def takeUp (sem : Semaphore ω) (w : ω) : Semaphore ω :=
  if 0 < sem.value then (sem.leave w).wakeUpNext else sem.leave w

/-- The future of a waiter is cancelled, unless it is done. -/
def cancel (sem : Semaphore ω) (w : ω) : Semaphore ω :=
  { sem with waiters := sem.waiters.modify w (fun t => if t = .pending then .cancelled else t) }

/-- No permit is idle while somebody waits for one. -/
def Served (sem : Semaphore ω) : Prop :=
  0 < sem.value → sem.hasTicket .pending = true → sem.hasTicket .granted = true

variable {sem : Semaphore ω} {w : ω}

theorem hasTicket_iff {t : Ticket} : sem.hasTicket t = true ↔ ∃ w, sem.waiters.get? w = some t := by
  rw [hasTicket, decide_eq_true_iff, Dict.values, List.mem_map]
  constructor
  · rintro ⟨⟨w, t⟩, member, rfl⟩
    exact ⟨w, Dict.mem_entries.mp member⟩
  · rintro ⟨w, found⟩
    exact ⟨(w, t), Dict.mem_entries.mpr found, rfl⟩

theorem count_of_no_ticket {t : Ticket} (nobody : ∀ w, sem.waiters.get? w ≠ some t) :
    sem.waiters.values.count t = 0 := by
  rw [List.count_eq_zero]
  intro member
  obtain ⟨w, held⟩ := hasTicket_iff.mp (decide_eq_true member)
  exact nobody w held

/-- What waking up the next waiter does. -/
theorem wakeUpNext_cases (sem : Semaphore ω) :
    (sem.hasTicket .pending = false ∧ sem.wakeUpNext = sem) ∨
      ∃ w, sem.waiters.get? w = some .pending ∧
        sem.wakeUpNext = ⟨sem.value - 1, sem.waiters.modify w (fun _ => .granted)⟩ := by
  unfold wakeUpNext
  cases found : sem.waiters.entries.find? (fun e => e.2 = .pending) with
  | none =>
    refine .inl ⟨?_, rfl⟩
    rw [Bool.eq_false_iff]
    intro waiting
    obtain ⟨w, there⟩ := hasTicket_iff.mp waiting
    exact List.find?_eq_none.mp found _ (Dict.mem_entries.mpr there) (by simp)
  | some e =>
    obtain ⟨w, t⟩ := e
    obtain rfl : t = .pending := by simpa using List.find?_some found
    exact .inr ⟨w, Dict.mem_entries.mp (List.mem_of_find?_eq_some found), rfl⟩

/-! ### Permits -/

theorem permits_wakeUpNext (free : 0 < sem.value) : sem.wakeUpNext.permits = sem.permits := by
  rcases wakeUpNext_cases sem with ⟨-, same⟩ | ⟨w, waiting, woken⟩
  · rw [same]
  · have counted := Dict.count_modify waiting (fun _ => .granted) .granted
    rw [if_neg (by decide), if_pos rfl, Nat.add_zero] at counted
    rw [woken, permits, permits, counted]
    show sem.value - 1 + (_ + 1) = _
    omega

theorem permits_release : sem.release.permits = sem.permits + 1 := by
  rw [release, permits_wakeUpNext (Nat.succ_pos _)]
  simp only [permits]
  omega

omit [DecidableEq ω] in
theorem permits_take (free : sem.locked = false) : sem.take.permits + 1 = sem.permits := by
  simp only [locked, Bool.or_eq_false_iff, decide_eq_false_iff_not] at free
  simp only [take, permits]
  omega

theorem permits_enqueue (absent : sem.waiters.get? w = none) : (sem.enqueue w).permits = sem.permits := by
  have values : (sem.waiters.insert w .pending).values = sem.waiters.values ++ [.pending] := by
    simp [Dict.values, Dict.insert, Dict.get?_eq_none.mp absent]
  rw [permits, enqueue, values, List.count_append]
  rfl

theorem permits_leave {t : Ticket} (found : sem.waiters.get? w = some t) :
    (sem.leave w).permits + (if t = .granted then 1 else 0) = sem.permits := by
  have counted := Dict.count_erase found .granted
  simp only [permits, leave]
  omega

theorem permits_takeUp (granted : sem.waiters.get? w = some .granted) : (sem.takeUp w).permits + 1 = sem.permits := by
  have left := permits_leave granted
  rw [if_pos rfl] at left
  unfold takeUp
  split
  · rename_i free
    have free : 0 < (sem.leave w).value := free
    rw [permits_wakeUpNext free, left]
  · exact left

theorem permits_cancel {t : Ticket} (found : sem.waiters.get? w = some t) : (sem.cancel w).permits = sem.permits := by
  have counted := Dict.count_modify found (fun t => if t = .pending then .cancelled else t) .granted
  cases t <;> simp_all [permits, cancel]

/-! ### Tickets -/

/-- What one waiter can see of the others: nobody appears or disappears, and a
cancelled ticket stays cancelled. -/
structure Undisturbed (sem after : Semaphore ω) (u : ω) : Prop where
  queued : (after.waiters.get? u).isSome = (sem.waiters.get? u).isSome
  cancelled : sem.waiters.get? u = some .cancelled → after.waiters.get? u = some .cancelled

theorem Undisturbed.of_eq {after : Semaphore ω} {u : ω} (same : after.waiters.get? u = sem.waiters.get? u) :
    Undisturbed sem after u :=
  ⟨by rw [same], fun cancelled => same.trans cancelled⟩

theorem Undisturbed.trans {middle after : Semaphore ω} {u : ω} (first : Undisturbed sem middle u)
    (second : Undisturbed middle after u) : Undisturbed sem after u :=
  ⟨second.queued.trans first.queued, fun cancelled => second.cancelled (first.cancelled cancelled)⟩

theorem undisturbed_wakeUpNext (sem : Semaphore ω) (u : ω) : Undisturbed sem sem.wakeUpNext u := by
  rcases wakeUpNext_cases sem with ⟨-, same⟩ | ⟨w, waiting, woken⟩
  · rw [same]
    exact .of_eq rfl
  · rw [woken]
    constructor
    · rw [Dict.get?_modify]
      split <;> simp
    · intro cancelled
      have other : u ≠ w := by
        rintro rfl
        cases waiting.symm.trans cancelled
      rw [Dict.get?_modify_ne _ _ other, cancelled]

theorem undisturbed_release (sem : Semaphore ω) (u : ω) : Undisturbed sem sem.release u := by
  have counted : Undisturbed sem { sem with value := sem.value + 1 } u := .of_eq rfl
  exact counted.trans (undisturbed_wakeUpNext _ u)

theorem get?_leave (sem : Semaphore ω) (w u : ω) :
    (sem.leave w).waiters.get? u = if u = w then none else sem.waiters.get? u :=
  Dict.get?_erase sem.waiters w u

theorem undisturbed_leave {u : ω} (other : u ≠ w) : Undisturbed sem (sem.leave w) u :=
  .of_eq (by rw [get?_leave, if_neg other])

theorem undisturbed_takeUp {u : ω} (other : u ≠ w) : Undisturbed sem (sem.takeUp w) u := by
  unfold takeUp
  split
  · exact (undisturbed_leave other).trans (undisturbed_wakeUpNext _ u)
  · exact undisturbed_leave other

theorem get?_takeUp_self (sem : Semaphore ω) (w : ω) : (sem.takeUp w).waiters.get? w = none := by
  have left : (sem.leave w).waiters.get? w = none := by rw [get?_leave, if_pos rfl]
  unfold takeUp
  split
  · have queued := (undisturbed_wakeUpNext (sem.leave w) w).queued
    rw [left] at queued
    exact Option.isNone_iff_eq_none.mp (by simpa using queued)
  · exact left

theorem undisturbed_enqueue {u : ω} (other : u ≠ w) : Undisturbed sem (sem.enqueue w) u :=
  .of_eq (by rw [enqueue, Dict.get?_insert, if_neg other])

theorem undisturbed_cancel (u : ω) : Undisturbed sem (sem.cancel w) u := by
  constructor
  · rw [cancel, Dict.get?_modify]
    split <;> simp
  · intro cancelled
    rw [cancel, Dict.get?_modify, cancelled]
    split <;> rfl

/-! ### No idle permits -/

theorem served_wakeUpNext (sem : Semaphore ω) : sem.wakeUpNext.Served := by
  rcases wakeUpNext_cases sem with ⟨nobody, same⟩ | ⟨w, waiting, woken⟩
  · rw [same]
    intro _ somebody
    cases nobody.symm.trans somebody
  · intro _ _
    rw [woken]
    refine hasTicket_iff.mpr ⟨w, ?_⟩
    rw [Dict.get?_modify_self, waiting]
    rfl

theorem served_create (k : Nat) : (create k : Semaphore ω).Served := by
  intro _ somebody
  obtain ⟨w, there⟩ := hasTicket_iff.mp somebody
  cases there

theorem served_take (free : sem.locked = false) : sem.take.Served := by
  intro _ somebody
  obtain ⟨w, there⟩ := hasTicket_iff.mp somebody
  simp only [locked, Bool.or_eq_false_iff, List.any_eq_false] at free
  exact absurd (by decide) (free.2 _ (Dict.mem_values there))

theorem served_enqueue (locked : sem.locked = true) (absent : sem.waiters.get? w = none) (ok : sem.Served) :
    (sem.enqueue w).Served := by
  have kept {u : ω} {t : Ticket} (there : sem.waiters.get? u = some t) :
      (sem.enqueue w).waiters.get? u = some t := by
    have other : u ≠ w := by
      rintro rfl
      cases absent.symm.trans there
    rw [enqueue, Dict.get?_insert, if_neg other, there]
  intro free _
  simp only [Semaphore.locked, Bool.or_eq_true, decide_eq_true_iff, List.any_eq_true] at locked
  -- Locked with permits left: somebody else is in the queue, and if only waiting then behind a granted ticket.
  rcases locked with empty | ⟨t, member, live⟩
  · exact absurd empty (Nat.ne_of_gt free)
  · have granted : sem.hasTicket .granted = true := by
      cases t with
      | pending => exact ok free (decide_eq_true member)
      | granted => exact decide_eq_true member
      | cancelled => cases live rfl
    obtain ⟨u, there⟩ := hasTicket_iff.mp granted
    exact hasTicket_iff.mpr ⟨u, kept there⟩

theorem served_takeUp (sem : Semaphore ω) (w : ω) : (sem.takeUp w).Served := by
  unfold takeUp
  split
  · exact served_wakeUpNext _
  · rename_i empty
    exact fun free => absurd free empty

/-- Leaving with a ticket that was not granted. -/
theorem served_leave (ticket : sem.waiters.get? w ≠ some .granted) (ok : sem.Served) : (sem.leave w).Served := by
  intro free somebody
  obtain ⟨u, there⟩ := hasTicket_iff.mp somebody
  rw [get?_leave] at there
  split at there
  · cases there
  · obtain ⟨v, granted⟩ := hasTicket_iff.mp (ok free (hasTicket_iff.mpr ⟨u, there⟩))
    refine hasTicket_iff.mpr ⟨v, ?_⟩
    rw [get?_leave, if_neg, granted]
    rintro rfl
    exact ticket granted

theorem served_cancel (ok : sem.Served) : (sem.cancel w).Served := by
  intro free somebody
  obtain ⟨u, there⟩ := hasTicket_iff.mp somebody
  have waiting : sem.waiters.get? u = some .pending := by
    rw [cancel, Dict.get?_modify] at there
    split at there
    · obtain ⟨t, old, new⟩ := Option.map_eq_some_iff.mp there
      split at new
      · cases new
      · exact old.trans (congrArg some new)
    · exact there
  obtain ⟨v, granted⟩ := hasTicket_iff.mp (ok free (hasTicket_iff.mpr ⟨u, waiting⟩))
  refine hasTicket_iff.mpr ⟨v, ?_⟩
  rw [cancel, Dict.get?_modify, granted]
  split <;> rfl

end Semaphore
end Semaphores
