import DistributedCompute.WaitForTasks

/-! What any call of `wait_for_tasks` returns, whether it was interrupted or not, and
whatever other callers cancelled meanwhile: for each of its task ids, in their order, a
response that was recorded for that task. -/
namespace DistributedCompute
open Py Futures Raising Transition

theorem collectAnswers_returned {responses : Dict TaskId Message} {taskIds : List TaskId} {answers : List Message}
    (h : collectAnswers responses taskIds = .returned answers) :
    List.Forall₂ (fun t response => responses.get? t = some response) taskIds answers := by
  unfold collectAnswers at h
  split at h
  · rename_i found all
    cases h
    have same := List.forall₂_eq_eq_eq ▸ mapM_eq_some.mp all
    rw [List.forall₂_map_left_iff, List.forall₂_map_right_iff] at same
    exact same
  · cases h

namespace Registry

/-- Whatever is stored, taken, awaited or returned for a task was recorded for it. -/
structure Sourced (r : Registry) : Prop where
  stored : ∀ t response, r.responses.get? t = some response → (t, response) ∈ r.log
  taken : ∀ caller ∈ r.callers, ∀ t response, caller.responses.get? t = some response → (t, response) ∈ r.log
  filled : ∀ caller ∈ r.callers, ∀ t f response, (t, f) ∈ caller.awaited →
    r.cells[f]? = some (.result response) → (t, response) ∈ r.log
  returned : ∀ caller ∈ r.callers, ∀ answers, caller.pc = .returned answers →
    List.Forall₂ (fun t response => (t, response) ∈ r.log) caller.taskIds answers

theorem sourced_initial : initial.Sourced :=
  ⟨fun _ _ found => (nomatch found), fun _ member => (nomatch member), fun _ member => (nomatch member),
    fun _ member => (nomatch member)⟩

section Sourced
variable {r r' : Registry}
variable {c : CallerId} {caller : Caller} {a : WaitAction}

theorem Sourced.record (sourced : r.Sourced) (linked : r.Linked) (t : TaskId) (response : Message) :
    (r.recordTaskResponse t response).Sourced := by
  have kept : ∀ {entry}, entry ∈ r.log → entry ∈ (r.recordTaskResponse t response).log :=
    List.mem_append_left _
  have new : (t, response) ∈ (r.recordTaskResponse t response).log :=
    List.mem_append_right _ (List.mem_singleton_self _)
  refine ⟨fun u other found => ?_,
    fun caller member u other found => kept (sourced.taken caller member u other found),
    fun caller member u f other awaits result => ?_,
    fun caller member answers done => (sourced.returned caller member answers done).imp fun _ _ => kept⟩
  · simp only [recordTaskResponse, Dict.get?_insert] at found
    split at found
    · rename_i same
      cases found
      exact same ▸ new
    · exact kept (sourced.stored u other found)
  · simp only [recordTaskResponse] at result
    split at result
    · rename_i g stored
      rw [getElem?_setResult] at result
      split at result
      · rename_i same
        subst same
        obtain ⟨cell, there, after⟩ := Option.map_eq_some_iff.mp result
        cases cell with
        | pending =>
          -- an unfinished future that is awaited for `u` is the one stored for `u`
          cases after
          have mine := linked.stored caller member u f awaits there
          exact linked.apart u t f mine stored there ▸ new
        | result value => exact kept (sourced.filled caller member u f other awaits (after ▸ there))
        | cancelled => cases after
      · exact kept (sourced.filled caller member u f other awaits result)
    · exact kept (sourced.filled caller member u f other awaits result)

/-- A call takes nothing but what is stored. -/
theorem stored_of_taken {taskIds : List TaskId} {known : Dict TaskId Message} {t : TaskId} {response : Message}
    (start : ∀ response, known.get? t = some response → r.responses.get? t = some response)
    (found : (taskIds.foldl r.takeResponse known).get? t = some response) : r.responses.get? t = some response := by
  induction taskIds generalizing known with
  | nil => exact start response found
  | cons u rest ih =>
    refine ih (fun other there => ?_) found
    rw [get?_takeResponse] at there
    split at there
    · rcases Option.or_eq_some_iff.mp there with stored | ⟨_, before⟩
      · exact stored
      · exact start other before
    · exact start other there

theorem Sourced.waitForTasks (sourced : r.Sourced) (linked : r.Linked) (taskIds : List TaskId) :
    (r.waitForTasks taskIds).Sourced := by
  have log := waitForTasks_log r taskIds
  obtain ⟨r', awaited, pc, obtained, linked', after, _, open_, ended⟩ := waitForTasks_spec linked taskIds
  have takes : ∀ t response, (r.taken taskIds).get? t = some response → (t, response) ∈ r.log := by
    intro t response found
    refine sourced.stored t response (stored_of_taken (fun other there => ?_) found)
    cases there
  have old : ∀ {caller t f response}, caller ∈ r.callers → (t, f) ∈ caller.awaited →
      r'.cells[f]? = some (.result response) → (t, response) ∈ r.log := by
    intro caller t f response member awaits result
    obtain ⟨more, grown⟩ := obtained.cells
    rw [grown, List.getElem?_append_left (linked.created caller member t f awaits)] at result
    exact sourced.filled caller member t f response awaits result
  rw [after] at log ⊢
  simp only at log
  refine ⟨fun t response found => ?_, fun caller member t response found => ?_,
    fun caller member t f response awaits result => ?_, fun caller member answers done => ?_⟩ <;>
    simp only [log]
  · exact sourced.stored t response (obtained.responses ▸ found)
  all_goals
    rcases List.mem_append.mp member with before | added
  · exact sourced.taken caller before t response found
  · obtain rfl := List.mem_singleton.mp added
    exact takes t response found
  · exact old before awaits result
  · obtain rfl := List.mem_singleton.mp added
    rw [(open_ t f awaits).2] at result
    cases result
  · exact sourced.returned caller before answers done
  · obtain rfl := List.mem_singleton.mp added
    rcases ended with rfl | ⟨_, rfl⟩
    · cases done
    · exact (collectAnswers_returned done).imp takes

/-- A turn of one caller, which cancels futures at most and returns what was recorded. -/
theorem Sourced.turn (sourced : r.Sourced) {f : Caller → Caller} {cells : List (Future Message)}
    (there : r.callers[c]? = some caller)
    (kept : ∀ caller, (f caller).taskIds = caller.taskIds ∧ (f caller).responses = caller.responses ∧
      (f caller).awaited = caller.awaited)
    (results : ∀ (g : FutureId) (response : Message), cells[g]? = some (.result response) →
      r.cells[g]? = some (.result response)) (ends : ∀ answers, (f caller).pc = .returned answers →
      List.Forall₂ (fun t response => (t, response) ∈ r.log) caller.taskIds answers) :
    ({ r with cells := cells }.setCaller c f).Sourced := by
  have before : ∀ {after}, after ∈ ({ r with cells := cells }.setCaller c f).callers →
      after ∈ r.callers ∨ after = f caller := by
    intro after member
    obtain ⟨k, here⟩ := List.mem_iff_getElem?.mp member
    rw [setCaller_callers] at here
    split at here
    · rename_i same
      subst same
      rw [there] at here
      exact .inr (Option.some.inj here).symm
    · exact .inl (List.mem_iff_getElem?.mpr ⟨k, here⟩)
  have mine : caller ∈ r.callers := List.mem_iff_getElem?.mpr ⟨c, there⟩
  obtain ⟨ids, responses, awaited⟩ := kept caller
  refine ⟨sourced.stored, fun after member t response found => ?_,
    fun after member t g response awaits result => ?_, fun after member answers done => ?_⟩
  all_goals rcases before member with old | rfl
  · exact sourced.taken after old t response found
  · exact sourced.taken caller mine t response (responses ▸ found)
  · exact sourced.filled after old t g response awaits (results g response result)
  · exact sourced.filled caller mine t g response (awaited ▸ awaits) (results g response result)
  · exact sourced.returned after old answers done
  · exact ids ▸ ends answers done

/-- What a caller makes of a gather that is over was recorded. -/
theorem Sourced.conclude (sourced : r.Sourced) (member : caller ∈ r.callers) {answers : List Message}
    (done : caller.conclude r.cells = .returned answers) :
    List.Forall₂ (fun t response => (t, response) ∈ r.log) caller.taskIds answers := by
  unfold Caller.conclude at done
  split at done
  · cases done
  · rename_i results all
    refine (collectAnswers_returned done).imp fun t response found => ?_
    rcases Dict.mem_of_foldl_insert (Dict.mem_entries.mpr found) with kept | entered
    · exact sourced.taken caller member t response (Dict.mem_entries.mp kept)
    · obtain ⟨f, awaits, filled⟩ := (results?_zip all).1 t response entered
      exact sourced.filled caller member t f response awaits filled

theorem result_of_cancelAll {cells : List (Future Message)} {fs : List FutureId} {g : FutureId} {response : Message}
    (result : (cancelAll cells fs)[g]? = some (.result response)) : cells[g]? = some (.result response) := by
  rw [getElem?_cancelAll] at result
  obtain ⟨cell, there, after⟩ := Option.map_eq_some_iff.mp result
  rw [there]
  split at after
  · cases cell with
    | result value => exact congrArg some after
    | pending | cancelled => cases after
  · exact congrArg some after

theorem Sourced.clear (sourced : r.Sourced) : r.clearDispatchRegistry.Sourced :=
  ⟨fun _ _ found => (nomatch found), sourced.taken,
    fun caller member t f response awaits result =>
      sourced.filled caller member t f response awaits (result_of_cancelAll result),
    sourced.returned⟩

/-- What a turn of caller `c` does: it may cancel futures, and it returns what the gather
gave it. -/
theorem callerStep_turn (taken : r.callerStep c caller a = some r') :
    ∃ (f : Caller → Caller) (cells : List (Future Message)), r' = { r with cells := cells }.setCaller c f ∧
      (∀ caller, (f caller).taskIds = caller.taskIds ∧ (f caller).responses = caller.responses ∧
        (f caller).awaited = caller.awaited) ∧
      (∀ (g : FutureId) (response : Message), cells[g]? = some (.result response) →
        r.cells[g]? = some (.result response)) ∧
      ∀ answers, (f caller).pc = .returned answers →
        caller.pc = .returned answers ∨ caller.conclude r.cells = .returned answers := by
  cases a with
  | call | record | clear => cases taken
  | interrupt _ why =>
    simp only [Registry.callerStep, Registry.interrupt] at taken
    split at taken
    · cases taken
      exact ⟨_, _, rfl, fun _ => ⟨rfl, rfl, rfl⟩, fun _ _ => result_of_cancelAll, fun _ => .inl⟩
    · cases taken
      exact ⟨_, r.cells, rfl, fun _ => ⟨rfl, rfl, rfl⟩, fun _ _ => id, fun _ => .inl⟩
    · cases taken
  | gatherEnds =>
    simp only [Registry.callerStep] at taken
    split at taken
    · split at taken
      · cases taken
        exact ⟨_, r.cells, rfl, fun _ => ⟨rfl, rfl, rfl⟩, fun _ _ => id, fun _ done => WaitPc.noConfusion done⟩
      · cases taken
    · cases taken
  | resume =>
    simp only [Registry.callerStep] at taken
    split at taken
    · cases taken
      exact ⟨_, r.cells, rfl, fun _ => ⟨rfl, rfl, rfl⟩, fun _ _ => id, fun _ => .inr⟩
    · cases taken
  | unwind =>
    simp only [Registry.callerStep] at taken
    split at taken
    · cases taken
      exact ⟨_, r.cells, rfl, fun _ => ⟨rfl, rfl, rfl⟩, fun _ _ => id, fun _ done => WaitPc.noConfusion done⟩
    · cases taken

theorem Sourced.callerStep (sourced : r.Sourced) (there : r.callers[c]? = some caller)
    (taken : r.callerStep c caller a = some r') : r'.Sourced := by
  have member : caller ∈ r.callers := List.mem_iff_getElem?.mpr ⟨c, there⟩
  obtain ⟨f, cells, rfl, kept, results, ends⟩ := callerStep_turn taken
  refine sourced.turn there kept results fun answers done => ?_
  rcases ends answers done with before | now
  · exact sourced.returned caller member answers before
  · exact sourced.conclude member now

theorem Sourced.step (sourced : r.Sourced) (linked : r.Linked) (taken : r.step a = some r') :
    r'.Sourced := by
  cases a with
  | call taskIds =>
    cases taken
    exact sourced.waitForTasks linked taskIds
  | record t response =>
    cases taken
    exact sourced.record linked t response
  | clear =>
    cases taken
    exact sourced.clear
  | interrupt c _ | gatherEnds c | resume c | unwind c =>
    obtain ⟨caller, there, turned⟩ := Option.bind_eq_some_iff.mp taken
    exact sourced.callerStep there turned

theorem sourced_of_run {ok : Registry → WaitAction → Prop} (run : Steps Registry.step ok initial r) : r.Sourced :=
  run.invariant_with (I := Sourced) (fun _ before => linked_of_run linked_initial before) sourced_initial
    (fun _ _ _ linked sourced _ taken => sourced.step linked taken)

end Sourced
end Registry
end DistributedCompute
