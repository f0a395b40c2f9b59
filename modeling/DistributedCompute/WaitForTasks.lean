import DistributedCompute.Futures
import DistributedCompute.Transition
import DistributedCompute.Protocol
import DistributedCompute.WorkerManager

/-! `wait_for_tasks`, `_record_task_response` and `clear_dispatch_registry` of
`master/async_server.py`: the two dictionaries `_task_responses` and
`_task_futures`, the futures, and the callers suspended on
`wait_for(gather(*futures), timeout)`. One step is the code a coroutine runs
between two awaits; starting the dispatcher is left to the master's lifecycle.

An interrupted caller (timed out or cancelled) cancels the unfinished futures of
its gather. Whether it raises or still gets the results of a gather that was
over differs between Python versions, so both are steps. `log` is a history
variable, read by no step. -/
namespace DistributedCompute
open Py Futures Raising Transition

abbrev CallerId := Nat

inductive Interruption
  | timeout
  | cancellation
  deriving DecidableEq, Repr

inductive WaitError
  | timeoutError
  | cancelledError
  | keyError
  deriving DecidableEq, Repr

def Interruption.error : Interruption → WaitError
  | .timeout => .timeoutError
  | .cancellation => .cancelledError

/-- Where a `wait_for_tasks` call is: on a gather that is not over, about to
resume from one that is, or at its end. -/
inductive WaitPc
  | suspended
  | gathered
  | returned (responses : List Message)
  | raised (error : WaitError)
  deriving Repr

/-- `awaited` is `zip(pending_ids, futures)`. -/
structure Caller where
  taskIds : List TaskId
  responses : Dict TaskId Message
  awaited : List (TaskId × FutureId)
  interrupted : Option Interruption
  pc : WaitPc

/-- The exception a call ended with. -/
def Caller.error? (caller : Caller) : Option WaitError :=
  match caller.pc with
  | .raised error => some error
  | _ => none

def Caller.hasReturned (caller : Caller) : Bool :=
  match caller.pc with
  | .returned _ => true
  | _ => false

structure Registry where
  responses : Dict TaskId Message
  futures : Dict TaskId FutureId
  cells : List (Future Message)
  callers : List Caller
  log : List (TaskId × Message)

inductive WaitAction
  | call (taskIds : List TaskId)
  | record (t : TaskId) (response : Message)
  | clear
  | interrupt (c : CallerId) (why : Interruption)
  | gatherEnds (c : CallerId)
  | resume (c : CallerId)
  | unwind (c : CallerId)

def WaitAction.caller? : WaitAction → Option CallerId
  | .interrupt c _ | .gatherEnds c | .resume c | .unwind c => some c
  | _ => none

namespace Registry

def initial : Registry := ⟨∅, ∅, [], [], []⟩

def takeResponse (r : Registry) (responses : Dict TaskId Message) (t : TaskId) : Dict TaskId Message :=
  match r.responses.get? t with
  | some response => responses.insert t response
  | none => responses

/-- The task ids that have a response, with it. -/
def taken (r : Registry) (taskIds : List TaskId) : Dict TaskId Message := taskIds.foldl r.takeResponse ∅

def pendingIds (r : Registry) (taskIds : List TaskId) : List TaskId :=
  taskIds.filter (fun t => !r.responses.contains t)

/-- A new future, stored as that of the task. -/
def createFuture (r : Registry) (t : TaskId) : FutureId × Registry :=
  (r.cells.length, { r with cells := r.cells ++ [.pending], futures := r.futures.insert t r.cells.length })

/-- `_task_futures.get(task_id)`, replaced where there is none or it is done. -/
def futureFor (r : Registry) (t : TaskId) : FutureId × Registry :=
  match r.futures.get? t with
  | some f => if isPending r.cells f then (f, r) else r.createFuture t
  | none => r.createFuture t

def futuresFor : Registry → List TaskId → List (TaskId × FutureId) × Registry
  | r, [] => ([], r)
  | r, t :: rest => ((t, (r.futureFor t).1) :: ((r.futureFor t).2.futuresFor rest).1,
      ((r.futureFor t).2.futuresFor rest).2)

end Registry

/-- `[responses[task_id] for task_id in task_ids]`. -/
def collectAnswers (responses : Dict TaskId Message) (taskIds : List TaskId) : WaitPc :=
  match taskIds.mapM responses.get? with
  | some answers => .returned answers
  | none => .raised .keyError

/-- What a caller does with the outcome of its gather. -/
def Caller.conclude (caller : Caller) (cells : List (Future Message)) : WaitPc :=
  match results? cells (caller.awaited.map Prod.snd) with
  | none => .raised .cancelledError
  | some results =>
    collectAnswers (((caller.awaited.map Prod.fst).zip results).foldl (fun responses entry =>
      responses.insert entry.1 entry.2) caller.responses) caller.taskIds

namespace Registry

/-- `wait_for_tasks` up to its `await`, or to its return when nothing is pending. -/
def waitForTasks (r : Registry) (taskIds : List TaskId) : Registry :=
  let responses := r.taken taskIds
  if r.pendingIds taskIds = [] then
    { r with callers := r.callers ++ [⟨taskIds, responses, [], none, collectAnswers responses taskIds⟩] }
  else
    let (awaited, r') := r.futuresFor (r.pendingIds taskIds)
    { r' with callers := r'.callers ++ [⟨taskIds, responses, awaited, none, .suspended⟩] }

/-- `_record_task_response`. -/
def recordTaskResponse (r : Registry) (t : TaskId) (response : Message) : Registry :=
  { r with
    responses := r.responses.insert t response
    cells := match r.futures.get? t with
      | some f => setResult r.cells f response
      | none => r.cells
    log := r.log ++ [(t, response)] }

def clearDispatchRegistry (r : Registry) : Registry :=
  { r with responses := ∅, futures := ∅, cells := cancelAll r.cells r.futures.values }

def setCaller (r : Registry) (c : CallerId) (f : Caller → Caller) : Registry :=
  { r with callers := r.callers.modify c f }

/-- The timer of `wait_for` fires, or the calling task is cancelled. A gather
that is over has no futures left to cancel. -/
def interrupt (r : Registry) (c : CallerId) (caller : Caller) (why : Interruption) : Option Registry :=
  match caller.pc with
  | .suspended => some ({ r with cells := cancelAll r.cells (caller.awaited.map Prod.snd) }.setCaller c
      (fun caller => { caller with interrupted := some why }))
  | .gathered => some (r.setCaller c (fun caller => { caller with interrupted := some why }))
  | _ => none

def callerStep (r : Registry) (c : CallerId) (caller : Caller) : WaitAction → Option Registry
  | .interrupt _ why => r.interrupt c caller why
  | .gatherEnds _ =>
    match caller.pc with
    | .suspended =>
      if gatherDone r.cells (caller.awaited.map Prod.snd) then
        some (r.setCaller c (fun caller => { caller with pc := .gathered }))
      else none
    | _ => none
  | .resume _ =>
    match caller.pc with
    | .gathered => some (r.setCaller c (fun caller => { caller with pc := caller.conclude r.cells }))
    | _ => none
  | .unwind _ =>
    match caller.pc, caller.interrupted with
    | .gathered, some why => some (r.setCaller c (fun caller => { caller with pc := .raised why.error }))
    | _, _ => none
  | _ => none

def step (r : Registry) (action : WaitAction) : Option Registry :=
  match action with
  | .call taskIds => some (r.waitForTasks taskIds)
  | .record t response => some (r.recordTaskResponse t response)
  | .clear => some r.clearDispatchRegistry
  | .interrupt c _ | .gatherEnds c | .resume c | .unwind c =>
    (r.callers[c]?).bind (fun caller => r.callerStep c caller action)

/-- No condition on the steps. -/
def anyWait (_ : Registry) (_ : WaitAction) : Prop := True

instance (r : Registry) (a : WaitAction) : Decidable (anyWait r a) := inferInstanceAs (Decidable True)

/-! ### The two dictionaries stay in step -/

/-- A future that is not done is the one stored for the task it is awaited for,
and that task has no response. -/
structure Linked (r : Registry) : Prop where
  known : ∀ t f, r.futures.get? t = some f → f < r.cells.length
  apart : ∀ t u f, r.futures.get? t = some f → r.futures.get? u = some f →
    r.cells[f]? = some .pending → t = u
  unanswered : ∀ t f, r.futures.get? t = some f → r.cells[f]? = some .pending → r.responses.get? t = none
  created : ∀ caller ∈ r.callers, ∀ t f, (t, f) ∈ caller.awaited → f < r.cells.length
  stored : ∀ caller ∈ r.callers, ∀ t f, (t, f) ∈ caller.awaited → r.cells[f]? = some .pending →
    r.futures.get? t = some f

theorem linked_initial : initial.Linked := by
  refine ⟨?_, ?_, ?_, ?_, ?_⟩
  · intro t f there
    cases there
  · intro t u f there
    cases there
  · intro t f there
    cases there
  · intro caller member
    cases member
  · intro caller member
    cases member

variable {r r' : Registry} {f : FutureId} {t : TaskId} {c : CallerId} {a : WaitAction}

/-- Callers move on and futures get done; nothing is stored. -/
theorem Linked.advance (linked : r.Linked) (responses : r'.responses = r.responses) (futures : r'.futures = r.futures)
    (later : Advances r.cells r'.cells)
    (callers : ∀ caller' ∈ r'.callers, ∃ caller ∈ r.callers, caller.awaited = caller'.awaited) : r'.Linked := by
  have grown := later.length_le
  refine ⟨?_, ?_, ?_, ?_, ?_⟩
  · intro t f there
    exact (linked.known t f (futures ▸ there)).trans_le grown
  · intro t u f there there' open_
    rw [futures] at there there'
    exact linked.apart t u f there there' (later.pending (linked.known t f there) open_)
  · intro t f there open_
    rw [futures] at there
    rw [responses]
    exact linked.unanswered t f there (later.pending (linked.known t f there) open_)
  · intro caller' member t f awaits
    obtain ⟨caller, member, same⟩ := callers caller' member
    exact (linked.created caller member t f (same ▸ awaits)).trans_le grown
  · intro caller' member t f awaits open_
    obtain ⟨caller, member, same⟩ := callers caller' member
    rw [← same] at awaits
    rw [futures]
    exact linked.stored caller member t f awaits (later.pending (linked.created caller member t f awaits) open_)

/-! ### Entering `wait_for_tasks` -/

/-- What obtaining futures leaves alone: only tasks without an unfinished future
get another one. -/
structure Obtains (r r' : Registry) : Prop where
  responses : r'.responses = r.responses
  callers : r'.callers = r.callers
  cells : ∃ more, r'.cells = r.cells ++ more
  futures : ∀ t f, r.futures.get? t = some f → r.cells[f]? = some .pending → r'.futures.get? t = some f

theorem Obtains.refl (r : Registry) : Obtains r r :=
  ⟨rfl, rfl, ⟨[], by simp⟩, fun _ _ there _ => there⟩

theorem Obtains.cell (obtained : Obtains r r') {cell : Future Message} (there : r.cells[f]? = some cell) :
    r'.cells[f]? = some cell := by
  obtain ⟨more, cells⟩ := obtained.cells
  obtain ⟨inside, _⟩ := List.getElem?_eq_some_iff.mp there
  rw [cells, List.getElem?_append_left inside, there]

theorem Obtains.trans {r'' : Registry} (first : Obtains r r') (second : Obtains r' r'') : Obtains r r'' := by
  obtain ⟨more, cells⟩ := first.cells
  obtain ⟨more', cells'⟩ := second.cells
  refine ⟨second.responses.trans first.responses, second.callers.trans first.callers,
    ⟨more ++ more', by rw [cells', cells, List.append_assoc]⟩, ?_⟩
  intro t f there open_
  exact second.futures t f (first.futures t f there open_) (first.cell open_)

theorem createFuture_obtains (replaces : ∀ f, r.futures.get? t = some f → r.cells[f]? ≠ some .pending) :
    Obtains r (r.createFuture t).2 := by
  refine ⟨rfl, rfl, ⟨[.pending], rfl⟩, ?_⟩
  intro u f there open_
  have other : u ≠ t := fun same => replaces f (same ▸ there) open_
  exact (Dict.get?_insert r.futures t u _).trans (by rw [if_neg other, there])

theorem createFuture_linked (linked : r.Linked) (absent : r.responses.get? t = none)
    (replaces : ∀ f, r.futures.get? t = some f → r.cells[f]? ≠ some .pending) : (r.createFuture t).2.Linked := by
  have obtained := createFuture_obtains replaces
  have later : Advances r.cells (r.createFuture t).2.cells := advances_append r.cells [.pending]
  have entry : ∀ u, (r.createFuture t).2.futures.get? u = if u = t then some r.cells.length else r.futures.get? u :=
    fun u => Dict.get?_insert r.futures t u _
  have grown : r.cells.length < (r.createFuture t).2.cells.length := by simp [createFuture]
  refine ⟨?_, ?_, ?_, ?_, ?_⟩
  · intro u f there
    rw [entry] at there
    split at there
    · cases there
      exact grown
    · exact (linked.known u f there).trans grown
  · intro u v f there there' open_
    rw [entry] at there there'
    split at there <;> split at there'
    · rename_i same same'
      rw [same, same']
    · cases there
      exact absurd (linked.known v _ there') (Nat.lt_irrefl _)
    · cases there'
      exact absurd (linked.known u _ there) (Nat.lt_irrefl _)
    · exact linked.apart u v f there there' (later.pending (linked.known u f there) open_)
  · intro u f there open_
    rw [entry] at there
    split at there
    · rename_i same
      exact same ▸ absent
    · exact linked.unanswered u f there (later.pending (linked.known u f there) open_)
  · intro caller member u f awaits
    exact (linked.created caller member u f awaits).trans grown
  · intro caller member u f awaits open_
    have before := later.pending (linked.created caller member u f awaits) open_
    exact obtained.futures u f (linked.stored caller member u f awaits before) before

/-- A caller gets the stored future of the task, which is not done. -/
theorem futureFor_spec (linked : r.Linked) (absent : r.responses.get? t = none) :
    Obtains r (r.futureFor t).2 ∧ (r.futureFor t).2.Linked ∧
      (r.futureFor t).2.futures.get? t = some (r.futureFor t).1 ∧
      (r.futureFor t).2.cells[(r.futureFor t).1]? = some .pending := by
  have fresh : ∀ replaces : (∀ f, r.futures.get? t = some f → r.cells[f]? ≠ some .pending),
      Obtains r (r.createFuture t).2 ∧ (r.createFuture t).2.Linked ∧
        (r.createFuture t).2.futures.get? t = some (r.createFuture t).1 ∧
        (r.createFuture t).2.cells[(r.createFuture t).1]? = some .pending := by
    intro replaces
    refine ⟨createFuture_obtains replaces, createFuture_linked linked absent replaces,
      Dict.get?_insert_self r.futures t _, ?_⟩
    simp [createFuture]
  unfold futureFor
  split
  · rename_i f there
    split
    · rename_i open_
      exact ⟨.refl r, linked, there, isPending_iff.mp open_⟩
    · rename_i ended
      refine fresh fun g there' open_ => ended (isPending_iff.mpr ?_)
      obtain rfl : f = g := Option.some.inj (there.symm.trans there')
      exact open_
  · rename_i none
    exact fresh fun f there => by rw [none] at there; cases there

theorem futuresFor_spec {ids : List TaskId} (linked : r.Linked) (absent : ∀ t ∈ ids, r.responses.get? t = none) :
    Obtains r (r.futuresFor ids).2 ∧ (r.futuresFor ids).2.Linked ∧
      (r.futuresFor ids).1.map Prod.fst = ids ∧
      ∀ t f, (t, f) ∈ (r.futuresFor ids).1 → (r.futuresFor ids).2.futures.get? t = some f ∧
        (r.futuresFor ids).2.cells[f]? = some .pending := by
  induction ids generalizing r with
  | nil => exact ⟨.refl r, linked, rfl, fun _ _ h => by cases h⟩
  | cons t rest ih =>
    obtain ⟨obtained, linked', there, open_⟩ := futureFor_spec linked (absent t (by simp))
    obtain ⟨later, linked'', names, stored⟩ := ih linked' (fun u member => by
      rw [obtained.responses]
      exact absent u (by simp [member]))
    refine ⟨obtained.trans later, linked'', by simp [futuresFor, names], ?_⟩
    intro u f member
    rw [futuresFor] at member
    rcases List.mem_cons.mp member with same | member
    · obtain ⟨rfl, rfl⟩ := Prod.mk.inj same
      exact ⟨later.futures u _ there open_, later.cell open_⟩
    · exact stored u f member

theorem absent_of_pendingIds {taskIds : List TaskId} (member : t ∈ r.pendingIds taskIds) :
    r.responses.get? t = none := by
  have absent := (List.mem_filter.mp member).2
  simpa [Dict.contains] using absent

theorem get?_takeResponse (r : Registry) (known : Dict TaskId Message) (t u : TaskId) :
    (r.takeResponse known u).get? t = if t = u then (r.responses.get? t).or (known.get? t) else known.get? t := by
  unfold takeResponse
  by_cases same : t = u
  · subst same
    cases r.responses.get? t <;> simp
  · cases r.responses.get? u <;> simp [Dict.get?_insert, same]

/-- A call takes exactly the responses there are. -/
theorem get?_taken (r : Registry) {taskIds : List TaskId} (member : t ∈ taskIds) :
    (r.taken taskIds).get? t = r.responses.get? t := by
  suffices ∀ known : Dict TaskId Message, known.get? t = r.responses.get? t ∨
      (known.get? t = none ∧ t ∈ taskIds) → (taskIds.foldl r.takeResponse known).get? t = r.responses.get? t from
    this ∅ (.inr ⟨rfl, member⟩)
  clear member
  induction taskIds with
  | nil => exact fun known h => h.resolve_right (fun h => by cases h.2)
  | cons u rest ih =>
    intro known h
    refine ih _ ?_
    rw [get?_takeResponse]
    by_cases same : t = u
    · refine .inl ?_
      rw [if_pos same]
      rcases h with there | ⟨absent, _⟩
      · rw [there, Option.or_self]
      · rw [absent, Option.or_none]
    · rw [if_neg same]
      exact h.imp_right (fun h => ⟨h.1, (List.mem_cons.mp h.2).resolve_left same⟩)

theorem futuresFor_log (ids : List TaskId) (r : Registry) : (r.futuresFor ids).2.log = r.log := by
  induction ids generalizing r with
  | nil => rfl
  | cons t rest ih =>
    rw [futuresFor, ih, futureFor]
    split
    · split <;> rfl
    · rfl

theorem waitForTasks_log (r : Registry) (taskIds : List TaskId) : (r.waitForTasks taskIds).log = r.log := by
  unfold waitForTasks
  dsimp only
  split
  · rfl
  · exact futuresFor_log _ r

/-- The caller a call adds: what it took, and the stored futures it awaits. -/
theorem waitForTasks_spec (linked : r.Linked) (taskIds : List TaskId) :
    ∃ r' awaited pc, Obtains r r' ∧ r'.Linked ∧
      r.waitForTasks taskIds = { r' with callers := r.callers ++ [⟨taskIds, r.taken taskIds, awaited, none, pc⟩] } ∧
      awaited.map Prod.fst = r.pendingIds taskIds ∧
      (∀ t f, (t, f) ∈ awaited → r'.futures.get? t = some f ∧ r'.cells[f]? = some .pending) ∧
      (pc = .suspended ∨ (r.pendingIds taskIds = [] ∧ pc = collectAnswers (r.taken taskIds) taskIds)) := by
  unfold waitForTasks
  by_cases done : r.pendingIds taskIds = []
  · refine ⟨r, [], _, .refl r, linked, if_pos done, done.symm, ?_, .inr ⟨done, rfl⟩⟩
    intro t f member
    cases member
  · obtain ⟨obtained, linked', names, stored⟩ := futuresFor_spec linked
      (fun t member => absent_of_pendingIds member)
    exact ⟨_, _, _, obtained, linked', by rw [if_neg done, ← obtained.callers], names, stored, .inl rfl⟩

theorem linked_waitForTasks (linked : r.Linked) (taskIds : List TaskId) :
    (r.waitForTasks taskIds).Linked := by
  obtain ⟨r', awaited, pc, obtained, linked', shape, _, stored, _⟩ := waitForTasks_spec linked taskIds
  rw [shape]
  refine ⟨linked'.known, linked'.apart, linked'.unanswered, ?_, ?_⟩
  · intro caller member t f awaits
    rcases List.mem_append.mp member with old | new
    · exact linked'.created caller (obtained.callers ▸ old) t f awaits
    · obtain rfl := List.mem_singleton.mp new
      exact linked'.known t f (stored t f awaits).1
  · intro caller member t f awaits open_
    rcases List.mem_append.mp member with old | new
    · exact linked'.stored caller (obtained.callers ▸ old) t f awaits open_
    · obtain rfl := List.mem_singleton.mp new
      exact (stored t f awaits).1

/-! ### Recording, clearing and the turns of a caller -/

theorem advances_record (r : Registry) (t : TaskId) (response : Message) :
    Advances r.cells (r.recordTaskResponse t response).cells := by
  unfold recordTaskResponse
  cases stored : r.futures.get? t with
  | none => exact .refl r.cells
  | some f => exact advances_setResult r.cells f response

/-- The future stored for the task is filled, if it was not done. -/
theorem record_fills (stored : r.futures.get? t = some f) (open_ : r.cells[f]? = some .pending) (response : Message) :
    (r.recordTaskResponse t response).cells[f]? = some (.result response) := by
  simp only [recordTaskResponse, stored]
  rw [getElem?_setResult, if_pos rfl, open_]
  rfl

theorem record_other (linked : r.Linked) {u : TaskId} (stored : r.futures.get? u = some f)
    (open_ : r.cells[f]? = some .pending) (other : u ≠ t) (response : Message) :
    (r.recordTaskResponse t response).cells[f]? = some .pending := by
  simp only [recordTaskResponse]
  cases mine : r.futures.get? t with
  | none => exact open_
  | some g =>
    have distinct : f ≠ g := by
      rintro rfl
      exact other (linked.apart u t f stored mine open_)
    rw [getElem?_setResult, if_neg distinct, open_]

theorem linked_record (linked : r.Linked) (t : TaskId) (response : Message) :
    (r.recordTaskResponse t response).Linked := by
  have later := advances_record r t response
  have grown := later.length_le
  refine ⟨fun u f there => (linked.known u f there).trans_le grown, ?_, ?_, ?_, ?_⟩
  · intro u v f there there' open_
    exact linked.apart u v f there there' (later.pending (linked.known u f there) open_)
  · intro u f there open_
    have before := later.pending (linked.known u f there) open_
    by_cases same : u = t
    · subst same
      cases open_.symm.trans (record_fills (r := r) there before response)
    · refine (Dict.get?_insert r.responses t u response).trans ?_
      rw [if_neg same, linked.unanswered u f there before]
  · intro caller member u f awaits
    exact (linked.created caller member u f awaits).trans_le grown
  · intro caller member u f awaits open_
    exact linked.stored caller member u f awaits (later.pending (linked.created caller member u f awaits) open_)

theorem linked_clear (linked : r.Linked) : r.clearDispatchRegistry.Linked := by
  have later : Advances r.cells r.clearDispatchRegistry.cells := advances_cancelAll r.cells r.futures.values
  refine ⟨fun _ _ there => (by cases there), fun _ _ _ there => (by cases there),
    fun _ _ there => (by cases there), ?_, ?_⟩
  · intro caller member t f awaits
    exact (linked.created caller member t f awaits).trans_le later.length_le
  · intro caller member t f awaits open_
    have before := later.pending (linked.created caller member t f awaits) open_
    exact absurd open_ (not_isPending_cancelAll (Dict.mem_values (linked.stored caller member t f awaits before)))

theorem setCaller_callers (r : Registry) (c k : CallerId) (f : Caller → Caller) :
    (r.setCaller c f).callers[k]? = if k = c then (r.callers[k]?).map f else r.callers[k]? :=
  getElem?_modify_ite r.callers c k f

/-- The futures that a step cancels. -/
def cancelledBy (r : Registry) : WaitAction → List FutureId
  | .clear => unfinished r.cells r.futures.values
  | .interrupt c _ =>
    match r.callers[c]? with
    | some ⟨_, _, awaited, _, .suspended⟩ => unfinished r.cells (awaited.map Prod.snd)
    | _ => []
  | _ => []

/-- A cancellation of other futures. -/
theorem cancelAll_elsewhere {cells : List (Future Message)} {fs : List FutureId} (spared : f ∉ unfinished cells fs) :
    (cancelAll cells fs)[f]? = cells[f]? := by
  rw [getElem?_cancelAll]
  cases there : cells[f]? with
  | none => rfl
  | some cell =>
    by_cases named : f ∈ fs
    · have ended : cell.done = true := by
        cases cell with
        | pending => exact absurd (List.mem_filter.mpr ⟨named, isPending_iff.mpr there⟩) spared
        | result _ | cancelled => rfl
      simp [named, Future.cancel_of_done ended]
    · simp [named]

/-- What a turn of caller `c` does: it may cancel its own futures, and changes
nothing but itself otherwise. -/
theorem callerStep_spec {caller : Caller} (found : r.callers[c]? = some caller) (named : a.caller? = some c)
    (taken : r.callerStep c caller a = some r') :
    ∃ (f : Caller → Caller) (cells : List (Future Message)), r' = { r with cells := cells }.setCaller c f ∧
      (∀ caller, (f caller).awaited = caller.awaited) ∧ Advances r.cells cells ∧
      ∀ g, g ∉ r.cancelledBy a → cells[g]? = r.cells[g]? := by
  have quiet : ∀ f : Caller → Caller, (∀ caller, (f caller).awaited = caller.awaited) →
      ∃ (f' : Caller → Caller) (cells : List (Future Message)),
        r.setCaller c f = { r with cells := cells }.setCaller c f' ∧
        (∀ caller, (f' caller).awaited = caller.awaited) ∧ Advances r.cells cells ∧
        ∀ g, g ∉ r.cancelledBy a → cells[g]? = r.cells[g]? :=
    fun f same => ⟨f, r.cells, rfl, same, .refl _, fun _ _ => rfl⟩
  obtain ⟨ids, responses, awaited, interrupted, pc⟩ := caller
  cases a with
  | call | record | clear => cases named
  | interrupt k why =>
    cases named
    cases pc with
    | suspended =>
      cases taken
      refine ⟨_, _, rfl, fun _ => rfl, advances_cancelAll r.cells _, ?_⟩
      intro g spared
      simp only [cancelledBy, found] at spared
      exact cancelAll_elsewhere spared
    | gathered =>
      cases taken
      exact quiet _ fun _ => rfl
    | returned | raised => cases taken
  | gatherEnds k =>
    cases pc with
    | suspended =>
      simp only [callerStep] at taken
      split at taken
      · cases taken
        exact quiet _ fun _ => rfl
      · cases taken
    | gathered | returned | raised => cases taken
  | resume k =>
    cases pc with
    | gathered =>
      cases taken
      exact quiet _ fun _ => rfl
    | suspended | returned | raised => cases taken
  | unwind k =>
    cases pc with
    | gathered =>
      cases interrupted with
      | none => cases taken
      | some why =>
        cases taken
        exact quiet _ fun _ => rfl
    | suspended | returned | raised => cases taken

theorem turn_log (named : a.caller? = some c) (taken : r.step a = some r') : r'.log = r.log := by
  have turn : (r.callers[c]?).bind (fun caller => r.callerStep c caller a) = some r' := by
    cases a with
    | call | record | clear => cases named
    | interrupt | gatherEnds | resume | unwind =>
      cases named
      exact taken
  obtain ⟨caller, found, turn⟩ := Option.bind_eq_some_iff.mp turn
  obtain ⟨f, cells, rfl, _⟩ := callerStep_spec found named turn
  rfl

theorem Linked.turn (linked : r.Linked) (named : a.caller? = some c)
    (taken : (r.callers[c]?).bind (fun caller => r.callerStep c caller a) = some r') : r'.Linked := by
  obtain ⟨caller, found, turn⟩ := Option.bind_eq_some_iff.mp taken
  obtain ⟨f, cells, rfl, same, later, _⟩ := callerStep_spec found named turn
  refine linked.advance rfl rfl later ?_
  intro caller' member
  obtain ⟨k, there⟩ := List.mem_iff_getElem?.mp member
  rw [setCaller_callers] at there
  split at there
  · obtain ⟨before, found, rfl⟩ := Option.map_eq_some_iff.mp there
    exact ⟨before, List.mem_of_getElem? found, (same before).symm⟩
  · exact ⟨caller', List.mem_of_getElem? there, rfl⟩

theorem Linked.step (linked : r.Linked) (taken : r.step a = some r') :
    r'.Linked := by
  cases a with
  | call taskIds =>
    cases taken
    exact linked_waitForTasks linked taskIds
  | record t response =>
    cases taken
    exact linked_record linked t response
  | clear =>
    cases taken
    exact linked_clear linked
  | interrupt | gatherEnds | resume | unwind => exact linked.turn rfl taken

theorem linked_of_run {ok : Registry → WaitAction → Prop} (linked : r.Linked) (run : Steps step ok r r') :
    r'.Linked :=
  run.invariant linked (fun _ _ _ before _ taken => before.step taken)

theorem gatherDone_of_awaited (linked : r.Linked) {caller : Caller} (there : r.callers[c]? = some caller)
    (ended : ∀ t f, (t, f) ∈ caller.awaited → r.cells[f]? ≠ some .pending) :
    gatherDone r.cells (caller.awaited.map Prod.snd) = true := by
  refine gatherDone_of_none_pending ?_ ?_
  · intro f member
    obtain ⟨⟨t, _⟩, awaits, rfl⟩ := List.mem_map.mp member
    exact linked.created caller (List.mem_of_getElem? there) t _ awaits
  · intro f member
    obtain ⟨⟨t, _⟩, awaits, rfl⟩ := List.mem_map.mp member
    exact ended t _ awaits

/-- In every run: a future that is not done and awaited for `t` is the one stored
for `t`, and `t` has no response. So recording a response fills every future
awaited for its task, a call takes the responses there are, and a caller all of
whose tasks have one is not suspended for good. -/
theorem no_lost_wakeup {r : Registry} (run : Steps step anyWait initial r) :
    (∀ caller ∈ r.callers, ∀ t f, (t, f) ∈ caller.awaited → r.cells[f]? = some .pending →
      r.responses.get? t = none ∧ r.futures.get? t = some f) ∧
    (∀ t response r', r.step (.record t response) = some r' → r'.responses.get? t = some response ∧
      ∀ caller ∈ r.callers, ∀ f, (t, f) ∈ caller.awaited → r.cells[f]? = some .pending →
        r'.cells[f]? = some (.result response)) ∧
    (∀ taskIds r', r.step (.call taskIds) = some r' → ∃ caller, r'.callers = r.callers ++ [caller] ∧
      ∀ t ∈ taskIds, ∀ response, r.responses.get? t = some response →
        caller.responses.get? t = some response ∧ ∀ f, (t, f) ∉ caller.awaited) ∧
    (∀ c caller, r.callers[c]? = some caller → caller.pc = .suspended →
      (∀ t f, (t, f) ∈ caller.awaited → r.responses.contains t = true) → (r.step (.gatherEnds c)).isSome = true) := by
  have linked := linked_of_run linked_initial run
  have held : ∀ caller ∈ r.callers, ∀ t f, (t, f) ∈ caller.awaited → r.cells[f]? = some .pending →
      r.responses.get? t = none ∧ r.futures.get? t = some f := by
    intro caller member t f awaits open_
    have stored := linked.stored caller member t f awaits open_
    exact ⟨linked.unanswered t f stored open_, stored⟩
  refine ⟨held, ?_, ?_, ?_⟩
  · intro t response r' taken
    cases taken
    refine ⟨Dict.get?_insert_self r.responses t response, ?_⟩
    intro caller member f awaits open_
    exact record_fills (held caller member t f awaits open_).2 open_ response
  · intro taskIds r' taken
    cases taken
    obtain ⟨r', awaited, pc, _, _, shape, names, _, _⟩ := waitForTasks_spec linked taskIds
    refine ⟨_, by rw [shape], ?_⟩
    intro t member response there
    refine ⟨(get?_taken r member).trans there, ?_⟩
    intro f awaits
    have absent := absent_of_pendingIds (names ▸ List.mem_map.mpr ⟨_, awaits, rfl⟩)
    rw [there] at absent
    cases absent
  · intro c caller there waiting answered
    have done := gatherDone_of_awaited linked there (fun t f awaits open_ => ?_)
    · simp [step, there, callerStep, waiting, done]
    · have absent := (held caller (List.mem_of_getElem? there) t f awaits open_).1
      have present := answered t f awaits
      rw [Dict.contains, absent] at present
      cases present

/-- The reply that ends task `t` in its first attempt. -/
def finalReply (t : TaskId) : Message := ⟨.taskResult, s!"task-{t}:1", [("status", .str "success")]⟩

/-- Two callers share the future of `t`; recording the reply reaches both. -/
theorem sharedRun_woken : ∃ r r', Steps step anyWait initial r ∧
    r.callers.map Caller.awaited = [[("t", 0)], [("u", 1), ("t", 0)]] ∧
    r.step (.record "t" (finalReply "t")) = some r' ∧ r'.cells[0]? = some (.result (finalReply "t")) := by
  obtain ⟨r, run, awaits, open_⟩ : ∃ r, Steps step anyWait initial r ∧
      r.callers.map Caller.awaited = [[("t", 0)], [("u", 1), ("t", 0)]] ∧ isPending r.cells 0 = true :=
    replay_reaches [.call ["t"], .call ["u", "t"]] (by decide)
  refine ⟨r, _, run, awaits, rfl, ?_⟩
  obtain ⟨caller, member, same⟩ := List.mem_map.mp (awaits ▸ List.mem_cons_self .. :
    [("t", 0)] ∈ r.callers.map Caller.awaited)
  exact ((no_lost_wakeup run).2.1 "t" (finalReply "t") _ rfl).2 caller member 0 (by simp [same])
    (isPending_iff.mp open_)

/-! ### What a caller returns -/

def awaitedBy (r : Registry) (c : CallerId) : List FutureId :=
  match r.callers[c]? with
  | some caller => caller.awaited.map Prod.snd
  | none => []

end Registry

def WaitAction.interrupts (c : CallerId) : WaitAction → Bool
  | .interrupt k _ => k = c
  | _ => false

def WaitAction.turnOf (c : CallerId) : WaitAction → Bool
  | .gatherEnds k | .resume k => k = c
  | _ => false

namespace Registry

/-- Caller `c` is not interrupted, and nobody cancels a future it awaits. -/
def undisturbed (c : CallerId) (r : Registry) (a : WaitAction) : Prop :=
  a.interrupts c = false ∧ ∀ f ∈ r.cancelledBy a, f ∉ r.awaitedBy c

instance (c : CallerId) (r : Registry) (a : WaitAction) : Decidable (undisturbed c r a) :=
  inferInstanceAs (Decidable (_ ∧ _))

/-- The responses recorded from state `r` on. -/
def recordedSince (r r' : Registry) : List (TaskId × Message) := r'.log.drop r.log.length

def firstFor (t : TaskId) (recorded : List (TaskId × Message)) : Option Message :=
  (recorded.find? (fun entry => entry.1 = t)).map Prod.snd

/-- The response of `t` at state `r`, or the first one recorded after it. -/
def answer (r r' : Registry) (t : TaskId) : Option Message :=
  (r.responses.get? t).or (firstFor t (r.recordedSince r'))

/-- Caller `c`, which entered in state `r₀` with `taskIds`, has got what was
recorded since, and nothing else. -/
structure Serves (r₀ : Registry) (taskIds : List TaskId) (c : CallerId) (r : Registry) (caller : Caller) : Prop where
  there : r.callers[c]? = some caller
  logged : ∃ later, r.log = r₀.log ++ later
  asked : caller.taskIds = taskIds
  responses : caller.responses = r₀.taken taskIds
  names : caller.awaited.map Prod.fst = r₀.pendingIds taskIds
  free : caller.interrupted = none
  awaited : ∀ t f, (t, f) ∈ caller.awaited →
    (firstFor t (r₀.recordedSince r) = none ∧ r.cells[f]? = some .pending) ∨
      ∃ response, firstFor t (r₀.recordedSince r) = some response ∧ r.cells[f]? = some (.result response)
  filled : caller.pc ≠ .suspended → ∀ t f, (t, f) ∈ caller.awaited → r.cells[f]? ≠ some .pending
  calm : ∀ error, caller.pc ≠ .raised error
  answers : ∀ answers, caller.pc = .returned answers → taskIds.map (r₀.answer r) = answers.map some

variable {r₀ r r' : Registry} {taskIds : List TaskId} {c : CallerId} {caller : Caller} {t : TaskId} {f : FutureId}
  {a : WaitAction}

theorem recordedSince_append {later : List (TaskId × Message)} (logged : ∃ earlier, r.log = r₀.log ++ earlier)
    (log : r'.log = r.log ++ later) :
    r₀.recordedSince r' = r₀.recordedSince r ++ later := by
  obtain ⟨earlier, eq⟩ := logged
  rw [recordedSince, recordedSince, log, eq, List.append_assoc, List.drop_left, List.drop_left]

theorem firstFor_append (t : TaskId) (earlier later : List (TaskId × Message)) :
    firstFor t (earlier ++ later) = (firstFor t earlier).or (firstFor t later) := by
  rw [firstFor, List.find?_append, firstFor, firstFor]
  cases List.find? (fun entry => decide (entry.1 = t)) earlier <;> rfl

/-- Once every task has an answer, later recordings change none. -/
theorem answers_kept {answers : List Message} {later : List (TaskId × Message)}
    (logged : ∃ earlier, r.log = r₀.log ++ earlier) (log : r'.log = r.log ++ later)
    (h : taskIds.map (r₀.answer r) = answers.map some) : taskIds.map (r₀.answer r') = answers.map some := by
  rw [← h]
  refine List.map_congr_left fun t member => ?_
  have present : (r₀.answer r t).isSome = true := by
    obtain ⟨response, _, there⟩ := List.mem_map.mp (h ▸ List.mem_map_of_mem member)
    rw [← there]
    rfl
  unfold answer at present ⊢
  rw [recordedSince_append logged log, firstFor_append]
  cases known : r₀.responses.get? t with
  | some response => rfl
  | none =>
    rw [known] at present
    cases first : firstFor t (r₀.recordedSince r) with
    | some response => rfl
    | none =>
      rw [first] at present
      cases present

/-- A step after which caller `c` is as it was, and so are its futures. -/
theorem Serves.frame (serves : Serves r₀ taskIds c r caller) (there : r'.callers[c]? = some caller)
    (log : r'.log = r.log) (cells : ∀ t f, (t, f) ∈ caller.awaited → r'.cells[f]? = r.cells[f]?) :
    Serves r₀ taskIds c r' caller where
  there := there
  logged := by rw [log]; exact serves.logged
  asked := serves.asked
  responses := serves.responses
  names := serves.names
  free := serves.free
  awaited := by
    intro t f awaits
    rw [cells t f awaits, recordedSince, log]
    exact serves.awaited t f awaits
  filled := by
    intro resumed t f awaits
    rw [cells t f awaits]
    exact serves.filled resumed t f awaits
  calm := serves.calm
  answers := by
    intro answers ended
    exact answers_kept serves.logged (by rw [log, List.append_nil]) (serves.answers answers ended)

theorem Serves.record (serves : Serves r₀ taskIds c r caller) (linked : r.Linked) (t : TaskId) (response : Message) :
    Serves r₀ taskIds c (r.recordTaskResponse t response) caller := by
  have log : (r.recordTaskResponse t response).log = r.log ++ [(t, response)] := rfl
  have later := advances_record r t response
  have member := List.mem_of_getElem? serves.there
  refine ⟨serves.there, ?_, serves.asked, serves.responses, serves.names, serves.free, ?_, ?_, serves.calm, ?_⟩
  · obtain ⟨earlier, eq⟩ := serves.logged
    exact ⟨earlier ++ [(t, response)], by rw [log, eq, List.append_assoc]⟩
  · intro u f awaits
    rw [recordedSince_append serves.logged log, firstFor_append]
    rcases serves.awaited u f awaits with ⟨unrecorded, open_⟩ | ⟨answer, first, filled⟩
    · have stored := linked.stored caller member u f awaits open_
      rw [unrecorded, Option.none_or]
      by_cases same : u = t
      · subst same
        exact .inr ⟨response, by simp [firstFor], record_fills stored open_ response⟩
      · exact .inl ⟨by simp [firstFor, Ne.symm same], record_other linked stored open_ same response⟩
    · refine .inr ⟨answer, by rw [first, Option.some_or], later.result filled⟩
  · intro resumed u f awaits open_
    exact serves.filled resumed u f awaits (later.pending (linked.created caller member u f awaits) open_)
  · intro answers ended
    exact answers_kept serves.logged log (serves.answers answers ended)

theorem exists_map_some {β γ : Type} {g : β → Option γ} {xs : List β} (all : ∀ x ∈ xs, (g x).isSome = true) :
    ∃ ys : List γ, xs.map g = ys.map some := by
  induction xs with
  | nil => exact ⟨[], rfl⟩
  | cons x rest ih =>
    obtain ⟨y, first⟩ := Option.isSome_iff_exists.mp (all x (by simp))
    obtain ⟨ys, later⟩ := ih (fun x' member => all x' (by simp [member]))
    exact ⟨y :: ys, by rw [List.map_cons, first, later, List.map_cons]⟩

theorem Serves.first_of_result (serves : Serves r₀ taskIds c r caller) {value : Message}
    (awaits : (t, f) ∈ caller.awaited) (filled : r.cells[f]? = some (.result value)) :
    firstFor t (r₀.recordedSince r) = some value := by
  rcases serves.awaited t f awaits with ⟨_, open_⟩ | ⟨response, first, filled'⟩
  · cases filled.symm.trans open_
  · cases filled.symm.trans filled'
    exact first

/-- The results of the gather, entered over what was taken at the call. -/
theorem Serves.entry (serves : Serves r₀ taskIds c r caller) {values : List Message}
    (all : results? r.cells (caller.awaited.map Prod.snd) = some values) (member : t ∈ taskIds) :
    ∃ response, r₀.answer r t = some response ∧
      (((caller.awaited.map Prod.fst).zip values).foldl (fun responses entry =>
        responses.insert entry.1 entry.2) caller.responses).get? t = some response := by
  obtain ⟨forth, back⟩ := results?_zip all
  rw [serves.responses]
  cases known : r₀.responses.get? t with
  | some response =>
    refine ⟨response, by rw [answer, known, Option.some_or], ?_⟩
    refine Dict.get?_foldl_insert ?_ (.inr ((get?_taken r₀ member).trans known))
    rintro ⟨u, value⟩ paired rfl
    obtain ⟨f, awaits, _⟩ := forth u value paired
    have absent := absent_of_pendingIds (serves.names ▸ List.mem_map.mpr ⟨_, awaits, rfl⟩)
    rw [known] at absent
    cases absent
  | none =>
    have pending : t ∈ r₀.pendingIds taskIds := List.mem_filter.mpr ⟨member, by simp [Dict.contains, known]⟩
    rw [← serves.names] at pending
    obtain ⟨⟨_, f⟩, awaits, rfl⟩ := List.mem_map.mp pending
    obtain ⟨value, paired⟩ := back _ f awaits
    obtain ⟨_, awaits', filled⟩ := forth _ value paired
    have first := serves.first_of_result awaits' filled
    refine ⟨value, by rw [answer, known, Option.none_or, first], ?_⟩
    refine Dict.get?_foldl_insert ?_ (.inl ⟨_, paired, rfl⟩)
    rintro ⟨u, value'⟩ paired' rfl
    obtain ⟨_, awaits', filled⟩ := forth u value' paired'
    exact Option.some.inj ((serves.first_of_result awaits' filled).symm.trans first)

theorem collectAnswers_of_entries {responses : Dict TaskId Message} {g : TaskId → Option Message}
    (entries : ∀ t ∈ taskIds, ∃ response, g t = some response ∧ responses.get? t = some response) :
    ∃ answers, collectAnswers responses taskIds = .returned answers ∧ taskIds.map g = answers.map some := by
  have same : taskIds.map responses.get? = taskIds.map g := by
    refine List.map_congr_left fun t member => ?_
    obtain ⟨response, asked, there⟩ := entries t member
    rw [asked, there]
  have asked : ∀ t ∈ taskIds, (g t).isSome = true := by
    intro t member
    obtain ⟨response, asked, _⟩ := entries t member
    rw [asked]
    rfl
  obtain ⟨answers, all⟩ := exists_map_some asked
  refine ⟨answers, ?_, all⟩
  rw [collectAnswers, mapM_eq_some.mpr (same.trans all)]

/-- With none of its futures pending, the caller returns the recorded responses. -/
theorem Serves.conclude (serves : Serves r₀ taskIds c r caller)
    (filled : ∀ t f, (t, f) ∈ caller.awaited → r.cells[f]? ≠ some .pending) :
    ∃ answers, caller.conclude r.cells = .returned answers ∧ taskIds.map (r₀.answer r) = answers.map some := by
  have all : (results? r.cells (caller.awaited.map Prod.snd)).isSome = true := by
    refine results?_of_filled fun f member => ?_
    obtain ⟨⟨t, _⟩, awaits, rfl⟩ := List.mem_map.mp member
    rcases serves.awaited t _ awaits with ⟨_, open_⟩ | ⟨response, _, done⟩
    · exact absurd open_ (filled t _ awaits)
    · exact ⟨response, done⟩
  obtain ⟨values, all⟩ := Option.isSome_iff_exists.mp all
  unfold Caller.conclude
  rw [all, serves.asked]
  exact collectAnswers_of_entries (fun t member => serves.entry all member)

/-! ### Undisturbed callers -/

theorem Serves.awaitedBy (serves : Serves r₀ taskIds c r caller) (awaits : (t, f) ∈ caller.awaited) :
    f ∈ r.awaitedBy c := by
  rw [Registry.awaitedBy, serves.there]
  exact List.mem_map.mpr ⟨_, awaits, rfl⟩

/-- The turn of another caller. -/
theorem Serves.other {k : CallerId} {other : Caller} (serves : Serves r₀ taskIds c r caller)
    (good : undisturbed c r a) (elsewhere : k ≠ c) (found : r.callers[k]? = some other) (named : a.caller? = some k)
    (taken : r.callerStep k other a = some r') :
    Serves r₀ taskIds c r' caller := by
  obtain ⟨f, cells, rfl, _, _, spared⟩ := callerStep_spec found named taken
  refine serves.frame ?_ rfl ?_
  · rw [setCaller_callers, if_neg (Ne.symm elsewhere)]
    exact serves.there
  · intro t g awaits
    exact spared g (fun cancelled => good.2 g cancelled (serves.awaitedBy awaits))

/-- The caller's own turn moves only its program counter. -/
theorem Serves.advance {pc : WaitPc} {f : Caller → Caller} (serves : Serves r₀ taskIds c r caller)
    (moved : f caller = { caller with pc }) (filled : ∀ t g, (t, g) ∈ caller.awaited → r.cells[g]? ≠ some .pending)
    (calm : ∀ error, pc ≠ .raised error)
    (answers : ∀ answers, pc = .returned answers → taskIds.map (r₀.answer r) = answers.map some) :
    Serves r₀ taskIds c (r.setCaller c f) { caller with pc } := by
  refine ⟨?_, serves.logged, serves.asked, serves.responses, serves.names, serves.free, serves.awaited,
    fun _ => filled, calm, answers⟩
  rw [setCaller_callers, if_pos rfl, serves.there, Option.map_some, moved]

theorem Serves.not_cancelled (serves : Serves r₀ taskIds c r caller) (member : f ∈ caller.awaited.map Prod.snd) :
    r.cells[f]? ≠ some .cancelled := by
  intro cancelled
  obtain ⟨⟨t, _⟩, awaits, rfl⟩ := List.mem_map.mp member
  rcases serves.awaited t _ awaits with ⟨_, open_⟩ | ⟨_, _, filled⟩
  · cases cancelled.symm.trans open_
  · cases cancelled.symm.trans filled

theorem Serves.own (serves : Serves r₀ taskIds c r caller) (good : undisturbed c r a) (named : a.caller? = some c)
    (taken : r.callerStep c caller a = some r') : ∃ caller', Serves r₀ taskIds c r' caller' := by
  cases a with
  | call | record | clear => cases named
  | interrupt k why =>
    cases named
    have calm := good.1
    simp [WaitAction.interrupts] at calm
  | gatherEnds k =>
    simp only [callerStep] at taken
    split at taken
    · split at taken
      · rename_i ended
        cases taken
        refine ⟨_, serves.advance rfl (fun t f awaits open_ => ?_) (fun _ h => by cases h)
          (fun _ h => by cases h)⟩
        obtain ⟨value, filled⟩ := filled_of_gatherDone ended (fun _ => serves.not_cancelled)
          (List.mem_map.mpr ⟨_, awaits, rfl⟩)
        cases filled.symm.trans open_
      · cases taken
    · cases taken
  | resume k =>
    simp only [callerStep] at taken
    split at taken
    · rename_i gathered
      cases taken
      have filled := serves.filled (by rw [gathered]; exact fun h => by cases h)
      obtain ⟨answers, returned, same⟩ := serves.conclude filled
      refine ⟨_, serves.advance (by rw [returned]) filled (fun _ h => by cases h) ?_⟩
      intro answers' h
      cases h
      exact same
    · cases taken
  | unwind k =>
    simp only [callerStep, serves.free] at taken
    split at taken
    · rename_i some_
      cases some_
    · cases taken

theorem Serves.step (serves : Serves r₀ taskIds c r caller) (linked : r.Linked) (good : undisturbed c r a)
    (taken : r.step a = some r') : ∃ caller', Serves r₀ taskIds c r' caller' := by
  have turn : ∀ k, a.caller? = some k →
      (r.callers[k]?).bind (fun caller => r.callerStep k caller a) = some r' →
      ∃ caller', Serves r₀ taskIds c r' caller' := by
    intro k named taken
    obtain ⟨other, found, taken⟩ := Option.bind_eq_some_iff.mp taken
    by_cases same : k = c
    · subst same
      obtain rfl : other = caller := Option.some.inj (found.symm.trans serves.there)
      exact serves.own good named taken
    · exact ⟨caller, serves.other good same found named taken⟩
  cases a with
  | call ids =>
    cases taken
    obtain ⟨r', awaited, pc, obtained, _, shape, _, _, _⟩ := waitForTasks_spec linked ids
    refine ⟨caller, serves.frame ?_ (r.waitForTasks_log ids) ?_⟩
    · obtain ⟨inside, _⟩ := List.getElem?_eq_some_iff.mp serves.there
      rw [shape]
      exact (List.getElem?_append_left inside).trans serves.there
    · intro t f awaits
      rw [shape, List.getElem?_eq_getElem
        (linked.created caller (List.mem_of_getElem? serves.there) t f awaits)]
      exact obtained.cell (List.getElem?_eq_getElem _)
  | record t response =>
    cases taken
    exact ⟨caller, serves.record linked t response⟩
  | clear =>
    cases taken
    refine ⟨caller, serves.frame serves.there rfl fun t f awaits => ?_⟩
    exact cancelAll_elsewhere (fun cancelled => good.2 f cancelled (serves.awaitedBy awaits))
  | interrupt k | gatherEnds k | resume k | unwind k => exact turn k rfl taken

/-- A call with nothing pending returns at once. -/
theorem collect_taken (none_pending : r.pendingIds taskIds = []) (r' : Registry) :
    ∃ answers, collectAnswers (r.taken taskIds) taskIds = .returned answers ∧
      taskIds.map (r.answer r') = answers.map some := by
  refine collectAnswers_of_entries fun t member => ?_
  cases known : r.responses.get? t with
  | some response => exact ⟨response, by rw [answer, known, Option.some_or], (get?_taken r member).trans known⟩
  | none =>
    have pending : t ∈ r.pendingIds taskIds := List.mem_filter.mpr ⟨member, by simp [Dict.contains, known]⟩
    rw [none_pending] at pending
    cases pending

theorem serves_call (linked : r.Linked) (taskIds : List TaskId) :
    ∃ caller, Serves r taskIds r.callers.length (r.waitForTasks taskIds) caller := by
  obtain ⟨r', awaited, pc, obtained, _, shape, names, stored, entered⟩ := waitForTasks_spec linked taskIds
  have log := r.waitForTasks_log taskIds
  have there : (r.waitForTasks taskIds).callers[r.callers.length]? =
      some ⟨taskIds, r.taken taskIds, awaited, none, pc⟩ := by
    rw [shape]
    exact List.getElem?_concat_length
  have waits : ∀ t f, (t, f) ∈ awaited → (firstFor t (r.recordedSince (r.waitForTasks taskIds)) = none ∧
      (r.waitForTasks taskIds).cells[f]? = some .pending) := by
    intro t f awaits
    rw [recordedSince, log, List.drop_length, shape]
    exact ⟨rfl, (stored t f awaits).2⟩
  have logged : ∃ later, (r.waitForTasks taskIds).log = r.log ++ later := ⟨[], by rw [log, List.append_nil]⟩
  rcases entered with rfl | ⟨none_pending, rfl⟩
  · exact ⟨_, there, logged, rfl, rfl, names, rfl, fun t f awaits => .inl (waits t f awaits),
      fun resumed => absurd rfl resumed, fun _ h => (by cases h), fun _ h => (by cases h)⟩
  · obtain ⟨answers, returned, same⟩ := collect_taken none_pending (r.waitForTasks taskIds)
    rw [returned] at there
    rw [none_pending, List.map_eq_nil_iff] at names
    subst names
    refine ⟨_, there, logged, rfl, rfl, none_pending.symm, rfl, fun _ _ awaits => (by cases awaits),
      fun _ _ _ awaits => (by cases awaits), fun _ h => (by cases h), ?_⟩
    intro answers' h
    cases h
    exact same

/-- The caller's own turns. -/
def ownTurn (c : CallerId) (_ : Registry) (a : WaitAction) : Prop := a.turnOf c = true

instance (c : CallerId) (r : Registry) (a : WaitAction) : Decidable (ownTurn c r a) :=
  inferInstanceAs (Decidable (_ = _))

/-- A served caller none of whose futures is pending gets to its return. -/
theorem Serves.returns (serves : Serves r₀ taskIds c r caller) (linked : r.Linked)
    (filled : ∀ t f, (t, f) ∈ caller.awaited → r.cells[f]? ≠ some .pending) :
    ∃ r' caller' answers, Steps Registry.step (ownTurn c) r r' ∧ r'.callers[c]? = some caller' ∧
      caller'.pc = .returned answers ∧ taskIds.map (r₀.answer r) = answers.map some := by
  obtain ⟨answers, concluded, same⟩ := serves.conclude filled
  have resumes : ∀ r' caller', r'.callers[c]? = some caller' → caller'.pc = .gathered →
      caller'.conclude r'.cells = .returned answers → Steps Registry.step (ownTurn c) r r' →
      ∃ r' caller' answers, Steps Registry.step (ownTurn c) r r' ∧ r'.callers[c]? = some caller' ∧
        caller'.pc = .returned answers ∧ taskIds.map (r₀.answer r) = answers.map some := by
    intro r' caller' there gathered concludes run
    refine ⟨r'.setCaller c (fun caller => { caller with pc := caller.conclude r'.cells }),
      { caller' with pc := caller'.conclude r'.cells }, answers, .snoc run (a := .resume c) ?_ ?_, ?_,
      concludes, same⟩
    · simp [ownTurn, WaitAction.turnOf]
    · simp [Registry.step, there, callerStep, gathered]
    · rw [setCaller_callers, if_pos rfl, there]
      rfl
  cases at_ : caller.pc with
  | suspended =>
    have done := gatherDone_of_awaited linked serves.there filled
    refine resumes (r.setCaller c (fun caller => { caller with pc := .gathered })) { caller with pc := .gathered }
      ?_ rfl concluded (.snoc .refl (a := .gatherEnds c) ?_ ?_)
    · rw [setCaller_callers, if_pos rfl, serves.there]
      rfl
    · simp [ownTurn, WaitAction.turnOf]
    · simp [Registry.step, serves.there, callerStep, at_, done]
  | gathered => exact resumes r caller serves.there at_ concluded .refl
  | returned answers' => exact ⟨r, caller, answers', .refl, serves.there, at_, serves.answers answers' at_⟩
  | raised error => exact absurd at_ (serves.calm error)

/-- A caller that is not interrupted, and whose futures nobody cancels, never
raises; once each of its tasks had a response at the call or was recorded since,
its own turns take it to its return; and it returns, in order, the response at
the call or else the first one recorded since. Nothing else of the run enters
into what it returns. -/
theorem waiter_returns_recorded {r r₁ r₂ : Registry} {taskIds : List TaskId} (run : Steps step anyWait initial r)
    (called : r.step (.call taskIds) = some r₁) (rest : Steps step (undisturbed r.callers.length) r₁ r₂) :
    ∃ caller, r₂.callers[r.callers.length]? = some caller ∧ (∀ error, caller.pc ≠ .raised error) ∧
      (∀ answers, caller.pc = .returned answers → taskIds.map (r.answer r₂) = answers.map some) ∧
      ((∀ t ∈ taskIds, (r.answer r₂ t).isSome = true) →
        ∃ r₃ caller' answers, Steps step (ownTurn r.callers.length) r₂ r₃ ∧
          r₃.callers[r.callers.length]? = some caller' ∧ caller'.pc = .returned answers ∧
          taskIds.map (r.answer r₂) = answers.map some) := by
  have linked := linked_of_run linked_initial run
  have linked₁ : r₁.Linked := linked.step called
  obtain ⟨caller, serves⟩ : ∃ caller, Serves r taskIds r.callers.length r₂ caller := by
    cases called
    refine rest.invariant_with (I := fun n => ∃ caller, Serves r taskIds r.callers.length n caller) (J := Linked)
      (fun _ => linked_of_run linked₁) (serves_call linked taskIds) ?_
    rintro t a u linked ⟨caller, serves⟩ good taken
    exact serves.step linked good taken
  have linked₂ := linked_of_run linked₁ rest
  refine ⟨caller, serves.there, serves.calm, serves.answers, fun answered => serves.returns linked₂ ?_⟩
  intro t f awaits open_
  -- a pending future is stored and unrecorded, so its task has no answer yet
  have pending : t ∈ r.pendingIds taskIds := serves.names ▸ List.mem_map.mpr ⟨_, awaits, rfl⟩
  have present := answered t (List.mem_filter.mp pending).1
  rcases serves.awaited t f awaits with ⟨unrecorded, _⟩ | ⟨_, _, filled⟩
  · rw [answer, absent_of_pendingIds pending, unrecorded] at present
    cases present
  · cases filled.symm.trans open_

/-- Another caller times out on another task, and the caller of `t` returns. -/
theorem apartRun_returns : ∃ r₂ r₃ caller answers, Steps step (undisturbed 0) (initial.waitForTasks ["t"]) r₂ ∧
    Steps step (ownTurn 0) r₂ r₃ ∧ r₃.callers[0]? = some caller ∧ caller.pc = .returned answers ∧
    answers.map Message.requestId = ["task-t:1"] := by
  obtain ⟨r₂, rest, recorded⟩ : ∃ r₂, Steps step (undisturbed 0) (initial.waitForTasks ["t"]) r₂ ∧
      (initial.answer r₂ "t").map Message.requestId = some "task-t:1" := replay_reaches
    [.call ["u"], .interrupt 1 .timeout, .record "t" (finalReply "t")] (by decide)
  obtain ⟨response, first, named⟩ := Option.map_eq_some_iff.mp recorded
  obtain ⟨_, _, _, _, returns⟩ := waiter_returns_recorded .refl rfl rest
  obtain ⟨r₃, caller, answers, turns, there, returned, same⟩ := returns (fun t member => by
    rw [List.mem_singleton.mp member, first]
    rfl)
  refine ⟨r₂, r₃, caller, answers, rest, turns, there, returned, ?_⟩
  rw [List.map_singleton, first] at same
  obtain rfl : answers = [response] := List.map_injective_iff.mpr (Option.some_injective _) same.symm
  rw [List.map_singleton, named]

/-- Two callers wait for `t`, and the first one times out. -/
def sharedTimeoutRun : List WaitAction :=
  [.call ["t"], .call ["t"], .interrupt 0 .timeout, .gatherEnds 1, .resume 1, .record "t" (finalReply "t")]

/-- The same run without the timeout. -/
def sharedPatientRun : List WaitAction :=
  [.call ["t"], .call ["t"], .record "t" (finalReply "t"), .gatherEnds 1, .resume 1]

theorem sharedTimeoutRun_cancels :
    (∃ r, Steps step (fun _ a => a.interrupts 1 = false) initial r ∧ r.responses.contains "t" = true ∧
      (r.callers[1]?).bind Caller.error? = some .cancelledError) ∧
    (∃ r, Steps step (fun _ a => a.interrupts 1 = false) initial r ∧ r.responses.contains "t" = true ∧
      (r.callers[1]?).any Caller.hasReturned = true) :=
  ⟨replay_reaches sharedTimeoutRun (by decide), replay_reaches sharedPatientRun (by decide)⟩

end Registry
end DistributedCompute
