import DistributedCompute.Lifecycle
import DistributedCompute.Winding

/-! `stop_master` without the workers. It waits in turn for the server, for the
dispatcher with every dispatch that it spawned, and for the failure monitor, and
only then closes the connections: from which states it returns on its own, and
what becomes of the tasks in flight. -/
namespace DistributedCompute
open Py Futures Relation Transition

def StopPc.suspended : StopPc → Bool
  | .returned | .raised => false
  | _ => true

namespace MasterRuntime

/-! ### Steps of the master alone -/

/-- The coroutines of the master go on by themselves: nothing comes from a worker,
no caller of `wait_for_tasks` is interrupted and nothing new is called. -/
def masterSide (h : MasterRuntime) : RuntimeAction → Bool
  | .master a => h.master.ownStep a
  | .waiter (.gatherEnds _) | .waiter (.resume _) | .waiter (.unwind _) | .loopTick _ | .loopReturns _ | .discard _
  | .monitorTick _ _ | .monitorReturns _ | .serverOpened _ | .serverFails _ | .resumeStop _ _ => true
  | _ => false

variable {peers : Bool}

abbrev OwnRun (h h' : MasterRuntime) : Prop := Steps step (fun h a => h.masterSide a = true) h h'

theorem ofRuntime_of_ownStep {m : Master} {a : Action} (own : m.ownStep a = true) : a.ofRuntime = false := by
  cases a <;> first | rfl | cases own

variable {h : MasterRuntime} {bs : List Background} {k : Nat}

/-- A run of the master is a run of the runtime. -/
theorem ownRun_of_master {m : Master} (run : Steps Master.step (fun m a => m.ownStep a = true) h.master m) :
    ∃ registry, h.OwnRun { h with master := m, registry } := by
  induction run with
  | refl => exact ⟨h.registry, .refl⟩
  | @snoc m₁ m₂ a _ own taken ih =>
    obtain ⟨registry, before⟩ := ih
    have moved : step { h with master := m₁, registry } (.master a) =
        some (withMaster { h with master := m₁, registry } m₂) := by
      simp [step, ofRuntime_of_ownStep own, taken]
    exact ⟨_, .snoc before (a := .master a) own moved⟩

theorem reached_of_ownRun {h' : MasterRuntime} (run : Steps step anyCall (initial peers) h) (own : h.OwnRun h') :
    Steps step anyCall (initial peers) h' :=
  run.trans (own.mono fun _ _ _ => trivial)

theorem master_of_run (run : Steps step anyCall (initial peers) h) :
    Steps Master.step anyStep Master.initial h.master :=
  (refines_of_run run).master

/-! ### What a stop call finds -/

def told (bs : List Background) (k : Nat) : Bool := (bs[k]?).any Background.told

theorem told_modify {f : Background → Background} (keeps : ∀ b, b.told = true → (f b).told = true) (e : Nat)
    (before : told bs k = true) : told (bs.modify e f) k = true := by
  obtain ⟨b, there, said⟩ := (Option.any_eq_true ..).mp before
  rw [told, getElem?_modify_ite, there]
  split
  · exact keeps b said
  · exact said

theorem told_append (more : List Background) (before : told bs k = true) :
    told (bs ++ more) k = true := by
  obtain ⟨b, there, said⟩ := (Option.any_eq_true ..).mp before
  rw [told, List.getElem?_append_left (List.getElem?_eq_some_iff.mp there).1, there]
  exact said

theorem told_self (small : k < bs.length) : told (bs.modify k .tell) k = true := by
  simp [told, List.getElem?_eq_getElem small, Background.tell]

/-- The references and the calls that use them, in every run. -/
structure Referenced (h : MasterRuntime) : Prop where
  dispatcher : ∀ k, h.dispatcherTask = some k →
    h.dispatcherStopEvent = some k ∧ h.dispatcherHere = true ∧ k < h.loops.length
  loop : ∀ stop ∈ h.stops, ∀ k, stop.pc = .loop k → told h.loops k = true
  event : h.monitorStopEvent = h.monitorTask
  monitor : ∀ j, h.monitorTask = some j → j < h.monitors.length
  awaited : ∀ stop ∈ h.stops, ∀ j, stop.pc = .monitor j → told h.monitors j = true

section Referenced
variable {h h' : MasterRuntime}

theorem Referenced.setStop (referenced : h.Referenced) (i : Nat) (pc : StopPc)
    (loop : ∀ k, pc = .loop k → told h.loops k = true) (awaited : ∀ j, pc = .monitor j → told h.monitors j = true) :
    (h.setStop i pc).Referenced where
  dispatcher := referenced.dispatcher
  loop stop member k at_ := by
    rcases mem_setStop member with before | ⟨before, _, rfl⟩
    · exact referenced.loop stop before k at_
    · exact loop k at_
  event := referenced.event
  monitor := referenced.monitor
  awaited stop member j at_ := by
    rcases mem_setStop member with before | ⟨before, _, rfl⟩
    · exact referenced.awaited stop before j at_
    · exact awaited j at_

/-- A stop call that waits for no loop and for no monitor. -/
theorem Referenced.setFree (referenced : h.Referenced) (i : Nat) (pc : StopPc)
    (noLoop : pc.awaitsLoop = false) (noMonitor : pc.awaitsMonitor = false) : (h.setStop i pc).Referenced := by
  refine referenced.setStop i pc ?_ ?_
  · rintro k rfl
    cases noLoop
  · rintro j rfl
    cases noMonitor

theorem Referenced.addStop (referenced : h.Referenced) (stop : Stop) (loop : ∀ k, stop.pc ≠ .loop k)
    (awaited : ∀ j, stop.pc ≠ .monitor j) : ({ h with stops := h.stops ++ [stop] } : MasterRuntime).Referenced :=
  { referenced with
    loop := fun other member k at_ => by
      rcases List.mem_append.mp member with before | new
      · exact referenced.loop other before k at_
      · rw [List.mem_singleton] at new
        exact absurd (new ▸ at_) (loop k)
    awaited := fun other member j at_ => by
      rcases List.mem_append.mp member with before | new
      · exact referenced.awaited other before j at_
      · rw [List.mem_singleton] at new
        exact absurd (new ▸ at_) (awaited j) }

/-- Loops that are told or return stay told. -/
theorem Referenced.modifyLoops (referenced : h.Referenced) (e : LoopId) {f : Background → Background}
    (keeps : ∀ b, b.told = true → (f b).told = true) :
    ({ h with loops := h.loops.modify e f } : MasterRuntime).Referenced :=
  { referenced with
    dispatcher := fun k task => by simpa using referenced.dispatcher k task
    loop := fun stop member k at_ => told_modify keeps e (referenced.loop stop member k at_) }

theorem Referenced.modifyMonitors (referenced : h.Referenced) (e : MonitorId) {f : Background → Background}
    (keeps : ∀ b, b.told = true → (f b).told = true) :
    ({ h with monitors := h.monitors.modify e f } : MasterRuntime).Referenced :=
  { referenced with
    monitor := fun j task => by simpa using referenced.monitor j task
    awaited := fun stop member j at_ => told_modify keeps e (referenced.awaited stop member j at_) }

theorem Referenced.tellMonitor (referenced : h.Referenced) (i : Nat) : (h.tellMonitor i).Referenced := by
  unfold MasterRuntime.tellMonitor
  split
  · exact referenced.setFree i .raised rfl rfl
  · rename_i e event
    have told := referenced.modifyMonitors e (f := .tell) fun _ _ => rfl
    dsimp only
    split
    · exact told.setFree i .raised rfl rfl
    · rename_i j task
      refine told.setStop i (.monitor j) (fun _ at_ => by cases at_) fun _ at_ => ?_
      cases at_
      obtain rfl : e = j := Option.some.inj (event.symm.trans (referenced.event.trans task))
      exact told_self (referenced.monitor e task)

theorem Referenced.dispatcherStopped (referenced : h.Referenced) (i : Nat) (whole : Bool) :
    (h.dispatcherStopped i whole).Referenced := by
  unfold MasterRuntime.dispatcherStopped
  split
  · exact referenced.tellMonitor i
  · exact referenced.setFree i .returned rfl rfl

theorem Referenced.beginStopDispatcher (referenced : h.Referenced) (i : Nat) (whole : Bool) :
    (h.beginStopDispatcher i whole).Referenced := by
  unfold MasterRuntime.beginStopDispatcher
  split
  · split
    · rename_i e k event task
      obtain ⟨same, _, small⟩ := referenced.dispatcher k task
      obtain rfl : e = k := Option.some.inj (event.symm.trans same)
      refine (referenced.modifyLoops e (f := .tell) fun _ _ => rfl).setStop i (.loop e)
        (fun _ at_ => ?_) fun _ at_ => by
        cases at_
      cases at_
      exact told_self small
    · exact referenced.setFree i .raised rfl rfl
  · exact referenced.dispatcherStopped i whole

theorem Referenced.poll (referenced : h.Referenced) (i : Nat) (deadline now : Time) :
    (h.poll i deadline now).Referenced := by
  unfold MasterRuntime.poll
  split
  · have cleared : ({ h with
        master := { h.master with connections := ∅ }
        registry := h.registry.clearDispatchRegistry } : MasterRuntime).Referenced := { referenced with }
    exact cleared.setFree i .returned rfl rfl
  · exact referenced.setFree i (.polling deadline) rfl rfl

theorem Referenced.closeNext (referenced : h.Referenced) (i : Nat) (rest : List LinkId) (now : Time) :
    (h.closeNext i rest now).Referenced := by
  cases rest with
  | nil => exact referenced.poll i _ now
  | cons l rest =>
    have lost : ({ h with master := h.master.loseLink l } : MasterRuntime).Referenced := { referenced with }
    exact lost.setFree i (.closing rest) rfl rfl

theorem Referenced.resumeStop (referenced : h.Referenced) {i : Nat} {stop : Stop} {now : Time}
    (resumed : h.resumeStop i stop now = some h') : h'.Referenced := by
  have released : ({ h with dispatcherTask := none } : MasterRuntime).Referenced :=
    { referenced with dispatcher := fun _ none => by cases none }
  cases resumeStop_change resumed with
  | serverClosed =>
    have shut : ({ h with server := none, masterHere := false } : MasterRuntime).Referenced := { referenced with }
    exact shut.beginStopDispatcher i stop.whole
  | noDispatches => exact released.dispatcherStopped i stop.whole
  | gathers => exact released.setFree i _ rfl rfl
  | gathered => exact referenced.dispatcherStopped i stop.whole
  | monitorRaised => exact referenced.setFree i .raised rfl rfl
  | monitorDone =>
    have reset : ({ h with monitorTask := none, monitorStopEvent := none } : MasterRuntime).Referenced :=
      { referenced with event := rfl, monitor := fun _ none => by cases none }
    exact reset.closeNext i _ now
  | closes => exact referenced.closeNext i _ now
  | polls => exact referenced.poll i _ now

theorem Referenced.ensure (referenced : h.Referenced) : h.ensureDispatcherRunning.Referenced := by
  unfold ensureDispatcherRunning
  split
  · exact referenced
  · exact { referenced with
      dispatcher := fun k task => by
        cases task
        exact ⟨rfl, rfl, by simp⟩
      loop := fun stop member k at_ => told_append _ (referenced.loop stop member k at_) }

theorem Referenced.step {a : RuntimeAction} (referenced : h.Referenced) (taken : h.step a = some h') :
    h'.Referenced := by
  cases step_change taken with
  | master | accept | waiter | loopTick | discard | monitorTick | serverFails => exact { referenced with }
  | waitForTasks taskIds =>
    have started := referenced.ensure
    exact { started with }
  | ensureDispatcherRunning => exact referenced.ensure
  | @loopReturns k => exact referenced.modifyLoops k fun _ => id
  | @monitorReturns i => exact referenced.modifyMonitors i fun _ => id
  | startMaster =>
    unfold startMaster
    split
    · split <;> exact { referenced with }
    · exact { referenced with }
  | serverOpened =>
    exact { referenced with
      event := rfl
      monitor := fun j task => by
        cases task
        simp [serverOpened]
      awaited := fun stop member j at_ => told_append _ (referenced.awaited stop member j at_) }
  | stopDispatcher =>
    exact (referenced.addStop _ (by simp) (by simp)).beginStopDispatcher _ _
  | stopMaster =>
    have added : ∀ pc, (∀ k, pc ≠ .loop k) → (∀ j, pc ≠ .monitor j) → ∀ servers,
        ({ h with servers, stops := h.stops ++ [⟨true, pc⟩] } : MasterRuntime).Referenced := by
      intro pc loop awaited servers
      have more := referenced.addStop ⟨true, pc⟩ loop awaited
      exact { more with }
    unfold stopMaster
    split
    · split <;> exact added _ (by simp) (by simp) _
    · exact added _ (by simp) (by simp) _
  | resumeStop _ resumed => exact referenced.resumeStop resumed
  | closeRaises => exact referenced.setFree _ .raised rfl rfl

theorem referenced_of_run (run : Steps MasterRuntime.step anyCall (initial peers) h) : h.Referenced := by
  refine run.invariant ⟨?_, ?_, rfl, ?_, ?_⟩ (fun _ _ _ before _ taken => before.step taken)
  · exact fun _ none => by cases none
  · exact fun _ member => by cases member
  · exact fun _ none => by cases none
  · exact fun _ member => by cases member

end Referenced
/-! ### The call goes through -/

/-- The stop call at `i` returns in steps of the master alone, and after some more
of them every connection is closed and no task in flight. -/
def Finishes (h : MasterRuntime) (i : Nat) : Prop :=
  ∃ h', h.OwnRun h' ∧ h.master.Winds h'.master ∧ h'.stops[i]? = some ⟨true, .returned⟩ ∧
    (∀ l, h'.master.isOpen l = false) ∧ ∀ t, h'.master.Landed t

section Finishes
variable {h h₁ : MasterRuntime} {i : Nat} {pc : StopPc}
variable {deadline now : Time} {j : MonitorId} {k : LoopId}

theorem Finishes.after (own : h.OwnRun h₁) (winds : h.master.Winds h₁.master) (finishes : h₁.Finishes i) :
    h.Finishes i := by
  obtain ⟨h', later, winds', rest⟩ := finishes
  exact ⟨h', own.trans later, winds.trans winds', rest⟩

/-- The call resumes and goes on to a state from which it returns. -/
theorem Finishes.resume (now : Time) (run : Steps step anyCall (initial peers) h)
    (there : h.stops[i]? = some ⟨true, pc⟩) (resumed : h.resumeStop i ⟨true, pc⟩ now = some h₁)
    (winds : h.master.Winds h₁.master)
    (finishes : Steps step anyCall (initial peers) h₁ → h₁.Finishes i) : h.Finishes i := by
  have taken : h.step (.resumeStop i now) = some h₁ := by
    simp only [step, there, Option.bind_some]
    exact resumed
  have own : h.OwnRun h₁ := .snoc .refl rfl taken
  exact .after own winds (finishes (reached_of_ownRun run own))

theorem stops_setStop (there : h.stops[i]? = some ⟨true, pc⟩) (pc' : StopPc) :
    (h.setStop i pc').stops[i]? = some ⟨true, pc'⟩ := by
  rw [setStop, getElem?_modify_ite, if_pos rfl, there]
  rfl

theorem finishes_returned (run : Steps step anyCall (initial peers) h) (there : h.stops[i]? = some ⟨true, .returned⟩)
    (unseated : ∀ w, h.master.connections.get? w = none) (closed : ∀ l, h.master.isOpen l = false)
    (manned : h.master.Manned) : h.Finishes i := by
  obtain ⟨m, unwinds, landed⟩ := Master.lands_all (master_of_run run) closed unseated manned
  obtain ⟨registry, own⟩ := ownRun_of_master unwinds.run
  exact ⟨_, own, unwinds.winds, there, unwinds.winds.closed closed, landed⟩

theorem winds_poll (h : MasterRuntime) (i : Nat) (deadline now : Time) :
    h.master.Winds (h.poll i deadline now).master := by
  unfold poll
  split
  · exact Master.winds_clear h.master
  · exact .refl h.master

theorem finishes_polled (run : Steps step anyCall (initial peers) (h.poll i deadline now))
    (there : h.stops[i]? = some ⟨true, pc⟩) (closed : ∀ l, h.master.isOpen l = false) (manned : h.master.Manned)
    (ends : h.master.connections.entries.isEmpty ∨ now ≥ deadline) : (h.poll i deadline now).Finishes i := by
  have winds := winds_poll h i deadline now
  refine finishes_returned run ?_ ?_ (winds.closed closed) (winds.manned manned)
  · rw [poll, if_pos ends]
    exact stops_setStop (h := { h with master := _, registry := _ }) there _
  · rw [poll, if_pos ends]
    exact fun _ => rfl

/-- The polling loop ends at its deadline at the latest. -/
theorem finishes_polling (run : Steps step anyCall (initial peers) h)
    (there : h.stops[i]? = some ⟨true, .polling deadline⟩) (closed : ∀ l, h.master.isOpen l = false)
    (manned : h.master.Manned) : h.Finishes i :=
  .resume deadline run there rfl (winds_poll h i deadline deadline) fun run' =>
    finishes_polled run' there closed manned (.inr (Int.le_refl deadline))

theorem finishes_poll (run : Steps step anyCall (initial peers) (h.poll i deadline now))
    (there : h.stops[i]? = some ⟨true, pc⟩) (closed : ∀ l, h.master.isOpen l = false) (manned : h.master.Manned) :
    (h.poll i deadline now).Finishes i := by
  by_cases ends : h.master.connections.entries.isEmpty ∨ now ≥ deadline
  · exact finishes_polled run there closed manned ends
  · have waits : h.poll i deadline now = h.setStop i (.polling deadline) := if_neg ends
    rw [waits] at run ⊢
    exact finishes_polling run (stops_setStop there _) closed manned

theorem winds_closeNext (h : MasterRuntime) (i : Nat) (rest : List LinkId) (now : Time) :
    h.master.Winds (h.closeNext i rest now).master := by
  cases rest with
  | nil => exact winds_poll h i _ now
  | cons l rest => exact Master.winds_loseLink h.master l

/-- The loop that closes the connections closes every open one that it was given. -/
theorem finishes_closeNext {rest : List LinkId} (run : Steps step anyCall (initial peers) (h.closeNext i rest now))
    (there : h.stops[i]? = some ⟨true, pc⟩) (listed : ∀ l, h.master.isOpen l = true → l ∈ rest)
    (manned : h.master.Manned) :
    (h.closeNext i rest now).Finishes i := by
  induction rest generalizing h pc now with
  | nil =>
    refine finishes_poll run there (fun l => ?_) manned
    cases opened : h.master.isOpen l with
    | false => rfl
    | true => cases listed l opened
  | cons l rest ih =>
    have there' : (h.closeNext i (l :: rest) now).stops[i]? = some ⟨true, .closing rest⟩ :=
      stops_setStop (h := { h with master := h.master.loseLink l }) there _
    refine .resume 0 run there' rfl (winds_closeNext _ i rest 0) fun run' => ih run' there' ?_ ?_
    · intro k opened
      have winds := Master.winds_loseLink h.master l
      rcases List.mem_cons.mp (listed k (winds.opens k opened)) with rfl | later
      · obtain ⟨link, inTable, live⟩ := (Option.any_eq_true ..).mp opened
        rw [closeNext, setStop, Master.loseLink, Master.links_modifyLink, if_pos rfl] at inTable
        obtain ⟨_, _, rfl⟩ := Option.map_eq_some_iff.mp inTable
        cases live
      · exact later
    · exact (Master.winds_loseLink h.master l).manned manned

theorem finishes_monitorDone (run : Steps step anyCall (initial peers) h)
    (there : h.stops[i]? = some ⟨true, .monitor j⟩) (waits : h.master.monitors[j]? = some .waiting)
    (returned : (h.monitors[j]?).any Background.returned = true)
    (listed : ∀ l, h.master.isOpen l = true → l ∈ h.master.connections.values) (manned : h.master.Manned) :
    h.Finishes i := by
  have resumed : h.resumeStop i ⟨true, .monitor j⟩ 0 = some (closeNext { h with
      monitorTask := none, monitorStopEvent := none } i h.master.connections.values 0) := by
    simp [resumeStop, monitorRaised, monitorDone, waits, returned]
  have winds : h.master.Winds _ :=
    winds_closeNext { h with monitorTask := none, monitorStopEvent := none } i h.master.connections.values 0
  refine .resume 0 run there resumed winds fun run' => ?_
  exact finishes_closeNext (h := { h with monitorTask := none, monitorStopEvent := none }) run' there listed manned

/-- A monitor that waits for its next tick returns once it was told to stop. -/
theorem finishes_monitor (run : Steps step anyCall (initial peers) h) (there : h.stops[i]? = some ⟨true, .monitor j⟩)
    (waits : h.master.monitors[j]? = some .waiting)
    (listed : ∀ l, h.master.isOpen l = true → l ∈ h.master.connections.values) (manned : h.master.Manned) :
    h.Finishes i := by
  have said := (referenced_of_run run).awaited _ (List.mem_of_getElem? there) j rfl
  obtain ⟨b, found, told⟩ := (Option.any_eq_true ..).mp said
  cases returned : b.returned with
  | true => exact finishes_monitorDone run there waits (by simp [found, returned]) listed manned
  | false =>
    have taken : h.step (.monitorReturns j) = some { h with monitors := h.monitors.modify j .finish } := by
      simp [step, found, waits, told, returned]
    have own : h.OwnRun { h with monitors := h.monitors.modify j .finish } := .snoc .refl rfl taken
    refine .after own (.refl _) ?_
    exact finishes_monitorDone (reached_of_ownRun run own) there waits (by simp [found, Background.finish])
      listed manned

theorem finishes_tellMonitor (run : Steps step anyCall (initial peers) (h.tellMonitor i))
    (there : h.stops[i]? = some ⟨true, pc⟩) (event : h.monitorStopEvent = some j) (task : h.monitorTask = some j)
    (waits : h.master.monitors[j]? = some .waiting)
    (listed : ∀ l, h.master.isOpen l = true → l ∈ h.master.connections.values) (manned : h.master.Manned) :
    (h.tellMonitor i).Finishes i := by
  have tells : h.tellMonitor i = setStop { h with monitors := h.monitors.modify j .tell } i (.monitor j) := by
    simp [tellMonitor, event, task]
  rw [tells] at run ⊢
  exact finishes_monitor run (stops_setStop (h := { h with monitors := _ }) there _) waits listed manned

/-- What a call that has yet to tell the monitor needs after the dispatcher. -/
structure Fit (h : MasterRuntime) : Prop where
  monitor : ∃ j, h.monitorTask = some j ∧ h.master.monitors[j]? = some .waiting
  listed : ∀ l, h.master.isOpen l = true → l ∈ h.master.connections.values
  manned : h.master.Manned

theorem finishes_dispatcherStopped (run : Steps step anyCall (initial peers) (h.dispatcherStopped i true))
    (there : h.stops[i]? = some ⟨true, pc⟩) (event : h.monitorStopEvent = h.monitorTask) (fit : h.Fit) :
    (h.dispatcherStopped i true).Finishes i := by
  obtain ⟨j, task, waits⟩ := fit.monitor
  exact finishes_tellMonitor run there (event.trans task) task waits fit.listed fit.manned

theorem tellMonitor_master (h : MasterRuntime) (i : Nat) : (h.tellMonitor i).master = h.master := by
  unfold tellMonitor
  split
  · rfl
  · dsimp only
    split <;> rfl

/-- The gather returns once every dispatch of the batch is over. -/
theorem finishes_dispatches {batch : List DispatchId} (run : Steps step anyCall (initial peers) h)
    (there : h.stops[i]? = some ⟨true, .dispatches batch⟩) (alone : ∀ d ∈ batch, h.master.endsAlone d = true)
    (fit : h.Fit) : h.Finishes i := by
  obtain ⟨unwinds, connections, ended⟩ := Master.ends_of_batch (master_of_run run) batch alone
  generalize batch.foldl Master.goesOn h.master = m at unwinds connections ended
  obtain ⟨registry, own⟩ := ownRun_of_master unwinds.run
  have run' := reached_of_ownRun run own
  have resumed : resumeStop { h with master := m, registry } i ⟨true, .dispatches batch⟩ 0 =
      some (dispatcherStopped { h with master := m, registry } i true) := by
    have all : batch.all m.callEnded = true := List.all_eq_true.mpr ended
    simp [resumeStop, all]
  refine .after own unwinds.winds (.resume 0 run' there resumed ?_ fun run'' => ?_)
  · rw [dispatcherStopped, if_pos rfl, tellMonitor_master]
    exact .refl _
  · obtain ⟨j, task, waits⟩ := fit.monitor
    refine finishes_dispatcherStopped run'' there (referenced_of_run run).event ⟨⟨j, task, ?_⟩, ?_, ?_⟩
    · exact unwinds.winds.monitors j waits
    · exact fun l opened => connections ▸ fit.listed l (unwinds.winds.opens l opened)
    · exact unwinds.winds.manned fit.manned

theorem finishes_loopDone (run : Steps step anyCall (initial peers) h) (there : h.stops[i]? = some ⟨true, .loop k⟩)
    (returned : h.loopDone k = true) (alone : ∀ d ∈ h.dispatchTasks, h.master.endsAlone d = true) (fit : h.Fit) :
    h.Finishes i := by
  by_cases idle : h.dispatchTasks = []
  · have resumed : h.resumeStop i ⟨true, .loop k⟩ 0 =
        some (dispatcherStopped { h with dispatcherTask := none } i true) := by
      simp [resumeStop, returned, idle]
    refine .resume 0 run there resumed ?_ fun run' => ?_
    · rw [dispatcherStopped, if_pos rfl, tellMonitor_master]
      exact .refl _
    · exact finishes_dispatcherStopped (h := { h with dispatcherTask := _ }) run' there (referenced_of_run run).event
        ⟨fit.monitor, fit.listed, fit.manned⟩
  · have resumed : h.resumeStop i ⟨true, .loop k⟩ 0 =
        some (setStop { h with dispatcherTask := none } i (.dispatches h.dispatchTasks)) := by
      simp [resumeStop, returned, idle]
    refine .resume 0 run there resumed (.refl _) fun run' => ?_
    exact finishes_dispatches run' (stops_setStop (h := { h with dispatcherTask := _ }) there _) alone
      ⟨fit.monitor, fit.listed, fit.manned⟩

/-- A dispatcher loop returns once it was told to stop. -/
theorem finishes_loop (run : Steps step anyCall (initial peers) h) (there : h.stops[i]? = some ⟨true, .loop k⟩)
    (alone : ∀ d ∈ h.dispatchTasks, h.master.endsAlone d = true) (fit : h.Fit) : h.Finishes i := by
  have said := (referenced_of_run run).loop _ (List.mem_of_getElem? there) k rfl
  obtain ⟨b, found, told⟩ := (Option.any_eq_true ..).mp said
  cases returned : b.returned with
  | true => exact finishes_loopDone run there (by simp [loopDone, found, returned]) alone fit
  | false =>
    have taken : h.step (.loopReturns k) = some { h with loops := h.loops.modify k .finish } := by
      simp [step, found, told, returned]
    have own : h.OwnRun { h with loops := h.loops.modify k .finish } := .snoc .refl rfl taken
    refine .after own (.refl _) ?_
    exact finishes_loopDone (reached_of_ownRun run own) there (by simp [loopDone, found, Background.finish]) alone
      ⟨fit.monitor, fit.listed, fit.manned⟩

theorem beginStopDispatcher_running {whole : Bool} (running : h.isDispatcherRunning = true)
    (event : h.dispatcherStopEvent = some k) (task : h.dispatcherTask = some k) :
    h.beginStopDispatcher i whole = setStop { h with loops := h.loops.modify k .tell } i (.loop k) := by
  rw [beginStopDispatcher, if_pos running]
  simp only [event, task]

theorem beginStopDispatcher_idle {whole : Bool} (idle : h.isDispatcherRunning = false) :
    h.beginStopDispatcher i whole = h.dispatcherStopped i whole := by
  rw [beginStopDispatcher, idle, if_neg Bool.false_ne_true]

theorem finishes_waitClosed {s : ServerId} (run : Steps step anyCall (initial peers) h)
    (there : h.stops[i]? = some ⟨true, .waitClosed s⟩) (gone : h.serverGone s = true)
    (alone : h.isDispatcherRunning = true → ∀ d ∈ h.dispatchTasks, h.master.endsAlone d = true) (fit : h.Fit) :
    h.Finishes i := by
  have referenced := referenced_of_run run
  by_cases running : h.isDispatcherRunning = true
  · obtain ⟨k, task⟩ : ∃ k, h.dispatcherTask = some k := by
      cases task : h.dispatcherTask with
      | none => simp [isDispatcherRunning, task] at running
      | some k => exact ⟨k, rfl⟩
    have event := (referenced.dispatcher k task).1
    have resumed : h.resumeStop i ⟨true, .waitClosed s⟩ 0 = some (setStop { h with
        server := none, masterHere := false, loops := h.loops.modify k .tell } i (.loop k)) :=
      (if_pos gone).trans (congrArg some
        (beginStopDispatcher_running (h := { h with server := none, masterHere := false }) running event task))
    refine .resume 0 run there resumed (.refl _) fun run' => ?_
    exact finishes_loop run' (stops_setStop (h := { h with server := _, masterHere := _, loops := _ }) there _)
      (alone running) ⟨fit.monitor, fit.listed, fit.manned⟩
  · have idle : h.isDispatcherRunning = false := by simpa using running
    have resumed : h.resumeStop i ⟨true, .waitClosed s⟩ 0 =
        some (dispatcherStopped { h with server := none, masterHere := false } i true) :=
      (if_pos gone).trans (congrArg some
        (beginStopDispatcher_idle (h := { h with server := none, masterHere := false }) idle))
    refine .resume 0 run there resumed ?_ fun run' => ?_
    · rw [dispatcherStopped, if_pos rfl, tellMonitor_master]
      exact .refl _
    · exact finishes_dispatcherStopped (h := { h with server := _, masterHere := _ }) run' there referenced.event
        ⟨fit.monitor, fit.listed, fit.manned⟩

end Finishes
/-! ### When a stop needs no worker -/

/-- The dispatches that the call has yet to wait for. -/
def awaits (h : MasterRuntime) : StopPc → List DispatchId
  | .waitClosed _ => if h.isDispatcherRunning then h.dispatchTasks else []
  | .loop _ => h.dispatchTasks
  | .dispatches batch => batch
  | _ => []

/-- The failure monitor that the call has yet to wait for, if there is one. -/
def monitorAhead (h : MasterRuntime) : StopPc → Option MonitorId
  | .waitClosed _ | .loop _ | .dispatches _ => h.monitorTask
  | .monitor j => some j
  | _ => none

/-- It is there, and between two ticks. -/
def monitorWaits (h : MasterRuntime) (pc : StopPc) : Bool :=
  !(pc.early || pc.awaitsMonitor) || (h.monitorAhead pc).any (fun j => h.master.monitors[j]? = some .waiting)

/-- The connections that the call has yet to close. -/
def closes (h : MasterRuntime) : StopPc → List LinkId
  | .waitClosed _ | .loop _ | .dispatches _ | .monitor _ => h.master.connections.values
  | .closing rest => rest
  | _ => []

/-- No connection keeps `wait_closed` from returning. -/
def serverReady (h : MasterRuntime) : StopPc → Bool
  | .waitClosed s => h.serverGone s
  | _ => true

/-- What needs no worker has gone on: the handlers of closed connections, and the
fallback drain of the monitor if it is in one. -/
def advanced (h : MasterRuntime) (pc : StopPc) : MasterRuntime :=
  { h with master := match h.monitorAhead pc with
      | some j => h.master.dropLost.sweepOut j
      | none => h.master.dropLost }

/-- No dispatch the call waits for has a worker to wait for, the monitor and the server
can be waited for, every open connection gets closed, and every task in flight is
attended. -/
def unblocked (h : MasterRuntime) (pc : StopPc) : Bool :=
  (h.awaits pc).all h.master.endsAlone && (h.monitorWaits pc && h.serverReady pc) &&
    (List.range h.master.links.length).all (fun l => !h.master.isOpen l || (h.closes pc).contains l) &&
    h.master.tasks.entries.all (fun e => !e.2.status.inFlight || h.master.attended e.1 e.2)

def readyToStop (h : MasterRuntime) (pc : StopPc) : Bool := (h.advanced pc).unblocked pc

theorem unblocked_iff {pc : StopPc} : h.unblocked pc = true ↔
    (∀ d ∈ h.awaits pc, h.master.endsAlone d = true) ∧ (h.monitorWaits pc = true ∧ h.serverReady pc = true) ∧
    (∀ l, h.master.isOpen l = true → l ∈ h.closes pc) ∧ h.master.Manned := by
  have inTable : ∀ {l}, h.master.isOpen l = true → l < h.master.links.length := by
    intro l opened
    obtain ⟨link, there, _⟩ := (Option.any_eq_true ..).mp opened
    exact (List.getElem?_eq_some_iff.mp there).1
  rw [unblocked, Bool.and_eq_true, Bool.and_eq_true, Bool.and_eq_true, Bool.and_eq_true, and_assoc, and_assoc]
  simp only [List.all_eq_true, Bool.or_eq_true, Bool.not_eq_eq_eq_not, Bool.not_true, List.contains_iff_mem,
    List.mem_range]
  refine and_congr Iff.rfl (and_congr Iff.rfl (and_congr ⟨?_, ?_⟩ ⟨?_, ?_⟩))
  · intro listed l opened
    exact (listed l (inTable opened)).resolve_left (by simp [opened])
  · intro listed l _
    cases opened : h.master.isOpen l with
    | false => exact .inl rfl
    | true => exact .inr (listed l opened)
  · intro each t task found flying
    exact (each (t, task) (Dict.mem_entries.mpr found)).resolve_left (by simp [flying])
  · rintro manned ⟨t, task⟩ member
    cases flying : task.status.inFlight with
    | false => exact .inl rfl
    | true => exact .inr (manned t task (Dict.mem_entries.mp member) flying)

theorem finishes_of_unblocked {i : Nat} {pc : StopPc} (run : Steps step anyCall (initial peers) h)
    (called : h.stops[i]? = some ⟨true, pc⟩)
    (suspended : pc.suspended = true) (ready : h.unblocked pc = true) : h.Finishes i := by
  obtain ⟨alone, ⟨waiting, gone⟩, listed, manned⟩ := unblocked_iff.mp ready
  have fit : pc.early = true → h.Fit := by
    intro early
    have wanted : (∃ j, h.monitorTask = some j ∧ h.master.monitors[j]? = some .waiting) ∧
        h.closes pc = h.master.connections.values := by
      cases pc with
      | waitClosed _ | loop _ | dispatches _ =>
        exact ⟨by simpa [monitorWaits, monitorAhead, StopPc.early, Option.any_eq_true] using waiting, rfl⟩
      | monitor _ | closing _ | polling _ | returned | raised => cases early
    exact ⟨wanted.1, wanted.2 ▸ listed, manned⟩
  cases pc with
  | waitClosed s =>
    refine finishes_waitClosed run called gone (fun running => ?_) (fit rfl)
    simpa [awaits, running] using alone
  | loop k => exact finishes_loop run called alone (fit rfl)
  | dispatches batch => exact finishes_dispatches run called alone (fit rfl)
  | monitor j =>
    refine finishes_monitor run called ?_ listed manned
    simpa [monitorWaits, monitorAhead, StopPc.awaitsMonitor] using waiting
  | closing rest =>
    exact .resume 0 run called rfl (winds_closeNext h i rest 0) fun run' =>
      finishes_closeNext run' called listed manned
  | polling deadline =>
    refine finishes_polling run called (fun l => ?_) manned
    cases opened : h.master.isOpen l with
    | false => rfl
    | true => cases listed l opened
  | returned => cases suspended
  | raised => cases suspended

theorem finishes_of_ready {i : Nat} {pc : StopPc} (run : Steps step anyCall (initial peers) h)
    (called : h.stops[i]? = some ⟨true, pc⟩) (suspended : pc.suspended = true) (ready : h.readyToStop pc = true) :
    h.Finishes i := by
  have unwinds : h.master.Unwinds (h.advanced pc).master := by
    have dropped := Master.unwinds_dropLost (master_of_run run)
    unfold advanced
    dsimp only
    split
    · exact dropped.trans (Master.unwinds_sweepOut (dropped.reached (master_of_run run)) _)
    · exact dropped
  obtain ⟨registry, own⟩ := ownRun_of_master unwinds.run
  exact .after own unwinds.winds (finishes_of_unblocked (reached_of_ownRun run own) called suspended ready)

/-- A worker that says nothing has a task of a caller that is not the dispatcher. -/
def directDispatchRun : List RuntimeAction :=
  [.startMaster, .serverOpened 0, .accept 0, .master (.receive 0 (registerRequest "w") 0), .master (.replySent 0),
    .master (.submitTask "t" "ADD" []), .master (.assignAndDispatch none), .master (.startDispatch 0 1000),
    .master (.sendDrained 0), .stopMaster]

end MasterRuntime

/-- The call waits for its reply on the first connection. -/
def Dispatch.waits : Dispatch → Bool
  | ⟨_, .sending 0 _ _ _ .waiting⟩ => true
  | _ => false

namespace Master

/-- Every call waits for its reply on the only connection, which is open and read, and
nothing can be assigned. -/
structure Silent (m : Master) : Prop where
  calls : ∀ (d : DispatchId) dispatch, m.dispatches[d]? = some dispatch → dispatch.waits = true
  link : ∃ pending generation workerId, m.links = [⟨false, pending, generation, workerId, .reading⟩]
  rest : m.scheduler.Resting

def isSilent (m : Master) : Bool :=
  m.dispatches.all Dispatch.waits &&
  (match m.links with
    | [⟨false, _, _, _, .reading⟩] => true
    | _ => false) &&
  (m.workers.entries.all (fun e => e.2.status ≠ .idle) || m.tasks.entries.isEmpty)

section Silent
variable {m m' : Master}

theorem silent_of_isSilent (check : m.isSilent = true) : m.Silent := by
  simp only [isSilent, Bool.and_eq_true, Bool.or_eq_true, List.all_eq_true, decide_eq_true_eq] at check
  obtain ⟨⟨calls, link⟩, rest⟩ := check
  refine ⟨fun d dispatch there => calls dispatch (List.mem_of_getElem? there), ?_, rest.imp ?_ ?_⟩
  · split at link
    · rename_i pending generation workerId links
      exact ⟨pending, generation, workerId, links⟩
    · cases link
  · intro busy w idle
    obtain ⟨worker, known, status⟩ := Option.map_eq_some_iff.mp idle
    exact busy (w, worker) (Dict.mem_entries.mpr known) status
  · intro empty t
    by_contra found
    obtain ⟨task, found⟩ := Option.ne_none_iff_exists'.mp found
    have listed := Dict.mem_entries.mpr found
    rw [show m.scheduler.tasks.entries = [] from List.isEmpty_iff.mp empty] at listed
    cases listed

theorem Silent.setDrain (silent : m.Silent) (i : DrainId) (f : Drain → Drain) : (m.setDrain i f).Silent :=
  { silent with }

/-- A drain finds nothing to assign. -/
theorem Silent.drainRound (silent : m.Silent) (i : DrainId) (drain : Drain) (now : Time) :
    (m.drainRound i drain now).Silent := by
  unfold Master.drainRound
  rw [Scheduler.assignAll_of_resting silent.rest]
  simp only [ne_eq, not_true_eq_false, if_false]
  split
  · exact silent.setDrain i _
  · split
    · exact silent.setDrain i _
    · split
      · exact silent.setDrain i _
      · split <;> exact silent.setDrain i _

theorem Silent.callDrain (silent : m.Silent) (scope : Option (List TaskId)) (timeout now : Time) :
    (m.callDrain scope timeout now).Silent := by
  have added : ({ m with drains := m.drains ++ [⟨scope, timeout, none, [], .sleeping⟩] } : Master).Silent :=
    { silent with }
  exact added.drainRound _ _ now

theorem waits_form {dispatch : Dispatch} (waits : dispatch.waits = true) :
    ∃ t w attempt drained, dispatch = ⟨t, .sending 0 w attempt drained .waiting⟩ := by
  unfold Dispatch.waits at waits
  split at waits
  · exact ⟨_, _, _, _, rfl⟩
  · cases waits

theorem Silent.callEnded (silent : m.Silent) (d : DispatchId) : m.callEnded d = false := by
  cases there : m.dispatches[d]? with
  | none => simp [Master.callEnded, dispatchPc, there]
  | some dispatch =>
    obtain ⟨t, w, attempt, drained, rfl⟩ := waits_form (silent.calls d dispatch there)
    simp [Master.callEnded, dispatchPc, there]

theorem Silent.dispatchStep {a : Action} {d : DispatchId} {dispatch : Dispatch} (silent : m.Silent)
    (own : m.ownStep a = true) (found : m.dispatches[d]? = some dispatch)
    (taken : m.dispatchStep d dispatch a = some m') : m'.Silent := by
  obtain ⟨t, w, attempt, drained, rfl⟩ := waits_form (silent.calls d dispatch found)
  obtain ⟨pending, generation, workerId, link⟩ := silent.link
  cases a with
  | sendDrained e =>
    cases drained with
    | false =>
      cases taken
      refine ⟨fun e other there => ?_, silent.link, silent.rest⟩
      rw [dispatches_setDispatch] at there
      split at there
      · obtain ⟨_, _, rfl⟩ := Option.map_eq_some_iff.mp there
        rfl
      · exact silent.calls e other there
    | true => cases taken
  | sendFails e reason => cases drained <;> simp [Master.dispatchStep, link] at taken
  | startDispatch | resumeDispatch | connectionClosed => cases drained <;> cases taken
  | abortDispatch => cases own
  | _ => cases taken

theorem Silent.own {a : Action} (silent : m.Silent) (own : m.ownStep a = true) (taken : m.step a = some m') :
    m'.Silent := by
  have turn : ∀ l link, m.links[l]? = some link → m.handlerTurn l link a = none := by
    obtain ⟨pending, generation, workerId, links⟩ := silent.link
    intro l link found
    obtain ⟨rfl, rfl⟩ : l = 0 ∧ link = ⟨false, pending, generation, workerId, .reading⟩ := by
      cases l with
      | zero => simpa [links, eq_comm] using found
      | succ l => simp [links] at found
    cases a with
    | handlerRaises k => cases k <;> simp [ownStep, links] at own
    | replySent | previousClosed | handlerClosed => rfl
    | _ => cases own <;> rfl
  cases a with
  | startDispatch d | sendDrained d | sendFails d _ | resumeDispatch d | connectionClosed d =>
    obtain ⟨dispatch, found, moved⟩ := Option.bind_eq_some_iff.mp taken
    exact silent.dispatchStep own found moved
  | handlerRaises l | replySent l | previousClosed l | handlerClosed l =>
    obtain ⟨link, found, moved⟩ := Option.bind_eq_some_iff.mp taken
    rw [turn l link found] at moved
    cases moved
  | resumeDrain i now =>
    obtain ⟨drain, _, moved⟩ := Option.bind_eq_some_iff.mp taken
    simp only [drainStep] at moved
    split at moved
    · unfold gathered at moved
      split at moved
      · cases moved
        exact silent.setDrain i _
      · split at moved
        · cases moved
        · cases moved
          exact (silent.setDrain i _).drainRound i _ now
    · cases moved
      exact silent.drainRound i drain now
    · cases moved
  | resumeMonitor i =>
    obtain ⟨pc, _, moved⟩ := Option.bind_eq_some_iff.mp taken
    simp only [monitorStep] at moved
    split at moved
    · split at moved
      · cases moved
        exact { silent with }
      · cases moved
        exact { silent with }
      · cases moved
    · cases moved
  | _ => cases own

/-- The monitor gives a worker up and requeues its tasks, but closes nothing. -/
theorem Silent.monitorTick {i : Nat} {now : Time} (silent : m.Silent)
    (taken : m.step (.monitorTick i now) = some m') : m'.Silent := by
  have rest : (m.scheduler.condemnStale heartbeatTimeout now).2.Resting := by
    refine silent.rest.imp (fun busy w idle => ?_) fun empty t => ?_
    · rw [Scheduler.condemnStale_workers, Scheduler.statusOf_stale] at idle
      split at idle
      · cases idle
      · exact busy w idle
    · rw [Scheduler.get?_condemnStale, empty, Option.map_none]
  have requeued : ({ m with scheduler := (m.scheduler.condemnStale heartbeatTimeout now).2 } : Master).Silent :=
    ⟨silent.calls, silent.link, rest⟩
  obtain ⟨pc, _, moved⟩ := Option.bind_eq_some_iff.mp taken
  simp only [monitorStep] at moved
  split at moved
  · cases moved
    unfold Master.monitorTick
    dsimp only
    split
    · exact requeued
    · have drained := requeued.callDrain none 30000 now
      exact { drained with }
  · cases moved

end Silent
end Master

namespace MasterRuntime

/-- Where the only stop call waits: for the server with its connection, for the loop of a
dispatcher with a call under way, or for that call. -/
inductive Held (h : MasterRuntime) : Prop
  | server : h.waitsForPeers = true → h.accepted = [0] → h.stops = [⟨true, .waitClosed 0⟩] → Held h
  | loop (k : LoopId) : h.dispatchTasks = [0] → h.stops = [⟨true, .loop k⟩] → Held h
  | dispatches : h.stops = [⟨true, .dispatches [0]⟩] → Held h

/-- The stop call waits for a silent worker. -/
structure Hangs (h : MasterRuntime) : Prop where
  silent : h.master.Silent
  starts : ∀ i : Nat, h.starts[i]? ≠ some .opening
  held : h.Held

section Hangs
variable {h h' : MasterRuntime}

theorem Hangs.isOpen (hangs : h.Hangs) : h.master.isOpen 0 = true := by
  obtain ⟨_, _, _, links⟩ := hangs.silent.link
  simp [Master.isOpen, links]

theorem Hangs.unfinished (hangs : h.Hangs) : h.stops[0]? ≠ some ⟨true, .returned⟩ := by
  cases hangs.held with
  | server _ _ stops | loop _ _ stops | dispatches stops => simp [stops]

theorem Hangs.resumeStop {i : Nat} {stop : Stop} {now : Time} (hangs : h.Hangs) (found : h.stops[i]? = some stop)
    (resumed : h.resumeStop i stop now = some h') : h'.Hangs := by
  have only : ∀ only, h.stops = [only] → i = 0 ∧ stop = only := by
    intro only stops
    cases i with
    | zero => simpa [stops, eq_comm] using found
    | succ i => simp [stops] at found
  cases hangs.held with
  | server peers accepted stops =>
    obtain ⟨rfl, rfl⟩ := only _ stops
    obtain ⟨_, _, _, links⟩ := hangs.silent.link
    simp [MasterRuntime.resumeStop, serverGone, peers, accepted, links] at resumed
  | loop k tracked stops =>
    obtain ⟨rfl, rfl⟩ := only _ stops
    simp only [MasterRuntime.resumeStop, tracked] at resumed
    split at resumed
    · cases resumed
      exact ⟨hangs.silent, hangs.starts, .dispatches (by simp [setStop, stops])⟩
    · cases resumed
  | dispatches stops =>
    obtain ⟨rfl, rfl⟩ := only _ stops
    simp [MasterRuntime.resumeStop, hangs.silent.callEnded] at resumed

theorem Hangs.step {a : RuntimeAction} (hangs : h.Hangs) (own : h.masterSide a = true) (taken : h.step a = some h') :
    h'.Hangs := by
  have held : ∀ {n : MasterRuntime}, n.waitsForPeers = h.waitsForPeers → n.accepted = h.accepted →
      n.dispatchTasks = h.dispatchTasks → n.stops = h.stops → n.Held := by
    intro n peers accepted tracked stops
    cases hangs.held with
    | server waits only at_ => exact .server (peers.trans waits) (accepted.trans only) (stops.trans at_)
    | loop k one at_ => exact .loop k (tracked.trans one) (stops.trans at_)
    | dispatches at_ => exact .dispatches (stops.trans at_)
  cases step_change taken with
  | master _ moved => exact ⟨hangs.silent.own own moved, hangs.starts, held rfl rfl rfl rfl⟩
  | monitorTick _ _ moved =>
    have silent : ({ h.master with dispatcher := h.isDispatcherRunning } : Master).Silent := { hangs.silent with }
    exact ⟨silent.monitorTick moved, hangs.starts, held rfl rfl rfl rfl⟩
  | loopTick =>
    have same : h.assignPending = { h with master := h.master.spawn [] } := by
      simp [assignPending, Scheduler.assignAll_of_resting hangs.silent.rest, Master.spawnedIds]
    rw [same]
    refine ⟨⟨fun d dispatch there => ?_, hangs.silent.link, hangs.silent.rest⟩, hangs.starts, held rfl rfl rfl rfl⟩
    exact hangs.silent.calls d dispatch (by simpa [Master.spawn] using there)
  | discard ended => simp [hangs.silent.callEnded] at ended
  | serverOpened opens => exact absurd opens (hangs.starts _)
  | serverFails opens => exact absurd opens (hangs.starts _)
  | resumeStop found resumed => exact hangs.resumeStop found resumed
  | waiter | loopReturns | monitorReturns => exact ⟨hangs.silent, hangs.starts, held rfl rfl rfl rfl⟩
  | accept | waitForTasks | ensureDispatcherRunning | startMaster | stopDispatcher | stopMaster | closeRaises =>
    cases own

theorem Hangs.later (hangs : h.Hangs) (own : h.OwnRun h') : h'.Hangs :=
  own.invariant hangs fun _ _ _ before own taken => before.step own taken

end Hangs

/-- The dispatcher has sent a task to a worker that says nothing more when
`stop_master` is called. -/
def silentWorkerRun : List RuntimeAction :=
  [.startMaster, .serverOpened 0, .accept 0, .master (.receive 0 (registerRequest "w") 0), .master (.replySent 0),
    .master (.submitTask "t" "ADD" []), .ensureDispatcherRunning, .loopTick 0, .master (.startDispatch 0 1000),
    .master (.sendDrained 0), .stopMaster, .resumeStop 0 0]

/-- A worker is connected, and nothing was submitted. -/
def idleWorkerRun : List RuntimeAction :=
  [.startMaster, .serverOpened 0, .accept 0, .master (.receive 0 (registerRequest "w") 0), .master (.replySent 0),
    .stopMaster]

end MasterRuntime
end DistributedCompute
