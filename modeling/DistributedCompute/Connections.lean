import DistributedCompute.Outcomes
import DistributedCompute.Exclusivity
import DistributedCompute.Succession

/-! Which connection speaks for a worker. `Master.seats` reads the succession of
links off the state: `connections` is the seat, a handler that was granted a
REGISTER and has not installed its link claims the worker, and the history
tells which link each generation was registered on. -/
namespace DistributedCompute
open Py Relation Transition

def Event.registeredOf : Event → Option (WorkerId × Nat × LinkId)
  | .registered w generation l => some (w, generation, l)
  | _ => none

/-- What the succession of links reads of a link. -/
def Link.face (link : Link) : Option WorkerId × Option Nat × Option WorkerId :=
  (link.workerId, link.generation, link.pc.registering)

/-- The generation of a worker, 0 before its first registration. -/
def WorkerManager.generationOf (ws : WorkerManager) (w : WorkerId) : Nat :=
  ((ws.get? w).map Worker.generation).getD 0

namespace Master

def face (m : Master) (l : LinkId) : Option WorkerId × Option Nat × Option WorkerId :=
  ((m.links[l]?).map Link.face).getD (none, none, none)

/-- Which link each generation of each worker was registered on. -/
def registrations (m : Master) : List (WorkerId × Nat × LinkId) := m.history.filterMap Event.registeredOf

def seats (m : Master) : Succession.State WorkerId LinkId where
  generation := m.workers.generationOf
  seat := m.connections.get?
  claim := fun l => (m.face l).2.2
  name := fun l => (m.face l).1
  stamp := fun l => (m.face l).2.1
  log := m.registrations

/-- Nothing the succession of links reads has changed. -/
structure SameSeats (m m' : Master) : Prop where
  connections : m'.connections = m.connections
  faces : ∀ l, m'.face l = m.face l
  generations : ∀ w, m'.workers.generationOf w = m.workers.generationOf w
  registrations : m'.registrations = m.registrations

namespace SameSeats
variable {m m' m'' : Master}

theorem refl (m : Master) : SameSeats m m := ⟨rfl, fun _ => rfl, fun _ => rfl, rfl⟩

theorem trans (first : SameSeats m m') (second : SameSeats m' m'') : SameSeats m m'' :=
  ⟨second.connections.trans first.connections, fun l => (second.faces l).trans (first.faces l),
    fun w => (second.generations w).trans (first.generations w),
    second.registrations.trans first.registrations⟩

theorem seats (same : SameSeats m m') : m'.seats = m.seats := by
  have generations : m'.workers.generationOf = m.workers.generationOf := funext same.generations
  simp only [Master.seats, same.connections, same.faces, generations, same.registrations]

end SameSeats

variable {m m' : Master} {l : LinkId} {link : Link} {f : Link → Link} {w : WorkerId} {response message : Message}
  {ws : WorkerManager} {now : Time} {a : Action}

theorem face_of_there (there : m.links[l]? = some link) :
    m.face l = link.face := by
  simp [face, there]

theorem face_modifyLink (there : m.links[l]? = some link) (k : LinkId) (f : Link → Link) :
    (m.modifyLink l f).face k = if k = l then (f link).face else m.face k := by
  simp only [face, links_modifyLink]
  split
  · rename_i same
    subst same
    simp [there]
  · rfl

theorem face_modifyLink_of_same (m : Master) (l k : LinkId) (same : ∀ link, (f link).face = link.face) :
    (m.modifyLink l f).face k = m.face k := by
  simp only [face, links_modifyLink]
  split
  · cases m.links[k]? <;> simp [same]
  · rfl

theorem generationOf_setStatus (ws : WorkerManager) (w v : WorkerId) (status : WorkerStatus) :
    (ws.setStatus w status).generationOf v = ws.generationOf v := by
  simp only [WorkerManager.generationOf, WorkerManager.get?_setStatus]
  split
  · simp only [Option.map_map, Function.comp_def]
  · rfl

theorem generationOf_beat (ws : WorkerManager) (w v : WorkerId) (now : Time) :
    WorkerManager.generationOf (Dict.modify ws w (fun worker => { worker with lastHeartbeat := some now })) v =
      ws.generationOf v := by
  simp only [WorkerManager.generationOf, Dict.get?_modify]
  split
  · simp only [Option.map_map, Function.comp_def]
  · rfl

theorem generationOf_released (s : Scheduler) (w v : WorkerId) :
    (s.released w).workers.generationOf v = s.workers.generationOf v := by
  unfold Scheduler.released
  split
  · rfl
  · exact generationOf_setStatus s.workers w v .idle

theorem generationOf_stale (ws : WorkerManager) (timeout now : Time) (w : WorkerId) :
    (ws.getStaleWorkers timeout now).2.generationOf w = ws.generationOf w := by
  simp only [WorkerManager.generationOf, WorkerManager.get?_staleWorkers, Option.map_map]
  congr 2
  funext worker
  simp only [Function.comp_apply]
  split <;> rfl

theorem sameSeats_modifyLink (m : Master) (l : LinkId) (same : ∀ link, (f link).face = link.face) :
    SameSeats m (m.modifyLink l f) :=
  ⟨rfl, fun k => face_modifyLink_of_same m l k same, fun _ => rfl, rfl⟩

theorem sameSeats_loseLink (m : Master) (l : LinkId) : SameSeats m (m.loseLink l) :=
  sameSeats_modifyLink m l (fun _ => rfl)

theorem sameSeats_accept (m : Master) : SameSeats m { m with links := m.links ++ [Link.fresh] } := by
  refine ⟨rfl, fun k => ?_, fun _ => rfl, rfl⟩
  simp only [face, List.getElem?_append]
  split
  · rfl
  · rename_i outside
    rw [List.getElem?_eq_none (Nat.le_of_not_lt outside)]
    cases k - m.links.length <;> rfl

theorem sameSeats_setDispatch (m : Master) (d : DispatchId) (pc : DispatchPc) :
    SameSeats m (m.setDispatch d pc) := ⟨rfl, fun _ => rfl, fun _ => rfl, rfl⟩

theorem sameSeats_recordIfTerminal (m : Master) (t : TaskId) (response : Message) :
    SameSeats m (m.recordIfTerminal t response) := by
  unfold recordIfTerminal
  split
  · split
    · refine ⟨rfl, fun _ => rfl, fun _ => rfl, ?_⟩
      simp [registrations, recordTaskResponse, List.filterMap_append, Event.registeredOf]
    · exact .refl m
  · exact .refl m

theorem sameSeats_finishDispatch (m : Master) (d : DispatchId) (t : TaskId) (response : Message) :
    SameSeats m (m.finishDispatch d t response) :=
  (sameSeats_recordIfTerminal m t response).trans (sameSeats_setDispatch _ d _)

theorem sameSeats_closeIfDraining (m : Master) (d : DispatchId) (t : TaskId) (w : WorkerId) (attempt : Nat)
    (response : Message) : SameSeats m (m.closeIfDraining d t w attempt response) := by
  unfold closeIfDraining
  split
  · split
    · exact (sameSeats_loseLink m _).trans (sameSeats_setDispatch _ d _)
    · exact sameSeats_finishDispatch m d t response
  · exact sameSeats_finishDispatch m d t response

theorem Unreached.sameSeats {d : DispatchId} {t : TaskId} {attempt : Nat}
    (outcome : Unreached m d t w attempt response m') : SameSeats m m' := by
  cases outcome with
  | late _ => exact sameSeats_setDispatch m d _
  | unknown _ _ => exact sameSeats_setDispatch m d _
  | condemned _ _ =>
    have condemned : SameSeats m (m.condemnedWorker w) :=
      ⟨rfl, fun _ => rfl, fun v => generationOf_setStatus m.workers w v .failed, rfl⟩
    exact condemned.trans ((sameSeats_recordIfTerminal _ t response).trans (sameSeats_setDispatch _ d _))

theorem Settled.sameSeats {d : DispatchId} {t : TaskId} {attempt : Nat}
    (outcome : Settled m d t w attempt response m') : SameSeats m m' := by
  cases outcome with
  | late _ => exact sameSeats_setDispatch m d _
  | malformed => exact sameSeats_setDispatch m d _
  | unknown _ _ _ _ => exact ⟨rfl, fun _ => rfl, fun _ => rfl, rfl⟩
  | settled _ _ =>
    have finished : SameSeats m (m.finishedTask t w response) := by
      refine ⟨rfl, fun _ => rfl, fun v => ?_, rfl⟩
      have kept := generationOf_released (m.scheduler.setTaskStatus t
        (if response.isSuccess then .completed else .failed)) w v
      exact kept
    exact finished.trans (sameSeats_closeIfDraining _ d t w attempt response)

theorem sameSeats_popPending (m : Master) (l : LinkId) (t : TaskId) (attempt : Nat) :
    SameSeats m (m.popPending l t attempt) := sameSeats_modifyLink m l (fun _ => rfl)

theorem sameSeats_startedTask (m : Master) (t : TaskId) : SameSeats m (m.startedTask t) :=
  ⟨rfl, fun _ => rfl, fun _ => rfl, rfl⟩

theorem sameSeats_writeTask (m : Master) (d : DispatchId) (t : TaskId) (task : Task) (w : WorkerId)
    (l : LinkId) : SameSeats m (m.writeTask d t task w l) := by
  refine ⟨rfl, fun k => ?_, fun _ => rfl, ?_⟩
  · exact face_modifyLink_of_same { m with history := m.history ++ [Event.sent t task.attempt l] } l k
      (fun _ => rfl)
  · simp [registrations, writeTask, setDispatch, modifyLink, List.filterMap_append, Event.registeredOf]

theorem sameSeats_condemnedStale (m : Master) (now : Time) : SameSeats m (m.condemnedStale now) := by
  refine ⟨rfl, fun _ => rfl, fun w => ?_, rfl⟩
  rw [workers, condemnedStale, Scheduler.condemnStale_workers]
  exact generationOf_stale m.workers heartbeatTimeout _ w

theorem sameSeats_setHandler {pc : HandlerPc} (there : m.links[l]? = some link)
    (claim : pc.registering = link.pc.registering) :
    SameSeats m (m.setHandler l pc) := by
  refine ⟨rfl, fun k => ?_, fun _ => rfl, rfl⟩
  rw [setHandler, face_modifyLink there]
  split
  · rename_i same
    subst same
    simp [face_of_there there, Link.face, claim]
  · rfl

theorem quiet_registering {pc : HandlerPc} (quiet : pc.quiet = true) : pc.registering = none := by
  cases pc <;> simp_all [HandlerPc.quiet, HandlerPc.registering]

/-! ### Registrations and departures -/

theorem generationOf_registered {ws' : WorkerManager} {request : Message}
    (granted : grantedRegistration ws request now = some (w, ws')) :
    (∃ worker, ws'.get? w = some worker ∧ worker.generation = ws.generationOf w + 1) ∧
      ws'.generationOf = Function.update ws.generationOf w (ws.generationOf w + 1) := by
  obtain ⟨worker, _, _, rfl, _, replaced⟩ := grantedRegistration_some granted
  have next : worker.generation = ws.generationOf w + 1 := by
    rcases replaced with ⟨absent, first⟩ | ⟨old, there, _, later⟩
    · simp [WorkerManager.generationOf, absent, first]
    · simp [WorkerManager.generationOf, there, later]
  refine ⟨⟨worker, Dict.get?_insert_self ws w worker, next⟩, ?_⟩
  funext v
  rw [Function.update_apply]
  split
  · rename_i same
    subst same
    simp [WorkerManager.generationOf, next]
  · rename_i other
    simp [WorkerManager.generationOf, Dict.get?_insert, other]

theorem seats_registered (there : m.links[l]? = some link)
    (granted : grantedRegistration m.workers message now = some (w, ws)) (ack : response.type = .registerAck) :
    (m.answered l message response ws now).seats = m.seats.registered l w := by
  obtain ⟨⟨worker, found, next⟩, generations⟩ := generationOf_registered granted
  obtain ⟨_, type, named, _⟩ := grantedRegistration_some granted
  have events : m.registrationEvents l message now = [.registered w (m.workers.generationOf w + 1) l] := by
    simp [registrationEvents, granted, found, next]
  have claims : (HandlerPc.replying message response).registering = some w := by
    simp [HandlerPc.registering, type, ack, named]
  have faces : ∀ k, (m.answered l message response ws now).face k =
      if k = l then (link.workerId, link.generation, some w) else m.face k := by
    intro k
    refine (face_modifyLink there k (fun link => { link with pc := .replying message response })).trans ?_
    simp [Link.face, claims]
  have mine := face_of_there there
  refine Succession.State.ext generations rfl ?_ ?_ ?_ ?_
  · funext k
    simp only [seats, faces, Succession.State.registered, Function.update_apply]
    split <;> rfl
  · funext k
    simp only [seats, faces, Succession.State.registered]
    split
    · rename_i same
      simp [same, mine, Link.face]
    · rfl
  · funext k
    simp only [seats, faces, Succession.State.registered]
    split
    · rename_i same
      simp [same, mine, Link.face]
    · rfl
  · simp [seats, registrations, Succession.State.registered, answered, setHandler, modifyLink, events,
      List.filterMap_append, Event.registeredOf]

theorem sameSeats_unregistered (there : m.links[l]? = some link) (reading : link.pc = .reading)
    (refused : grantedRegistration m.workers message now = none) (other : response.type ≠ .registerAck)
    (generations : ∀ w, ws.generationOf w = m.workers.generationOf w) :
    SameSeats m (m.answered l message response ws now) := by
  have answering : SameSeats m { m with
      scheduler := { m.scheduler with workers := ws }
      history := m.history ++ m.registrationEvents l message now } := by
    refine ⟨rfl, fun _ => rfl, generations, ?_⟩
    simp [registrations, registrationEvents, refused]
  refine answering.trans (sameSeats_setHandler there ?_)
  simp [HandlerPc.registering, reading, other]

/-- Only a granted REGISTER changes a generation. -/
theorem seats_handled (there : m.links[l]? = some link) (reading : link.pc = .reading)
    (handled : Handled m.workers message now response ws) :
    SameSeats m (m.answered l message response ws now) ∨
      ∃ w, grantedRegistration m.workers message now = some (w, ws) ∧
        (m.answered l message response ws now).seats = m.seats.registered l w := by
  cases handled with
  | registered granted ack => exact .inr ⟨_, granted, seats_registered there granted ack⟩
  | unchanged refused other =>
    exact .inl (sameSeats_unregistered there reading refused other (fun _ => rfl))
  | @beat w type _ _ other =>
    refine .inl (sameSeats_unregistered there reading (grantedRegistration_of_ne (by simp [type])) other ?_)
    exact fun v => generationOf_beat m.workers w v now
  | drained type _ _ _ other =>
    refine .inl (sameSeats_unregistered there reading (grantedRegistration_of_ne (by simp [type])) other ?_)
    exact fun v => generationOf_setStatus _ _ v .draining

theorem install_connections (m : Master) (l : LinkId) (w : WorkerId) :
    (m.install l w).connections = m.connections.insert w l := by
  unfold install
  split
  · split <;> rfl
  · rfl

theorem face_install (there : m.links[l]? = some link) (w : WorkerId) (k : LinkId) : (m.install l w).face k =
      if k = l then (some w, (m.workers.get? w).map Worker.generation, none) else m.face k := by
  have placed : ∀ pc : HandlerPc, pc.registering = none → ∀ m' : Master,
      m'.links[l]? = some { link with
        workerId := some w, generation := (m.workers.get? w).map Worker.generation } →
      (∀ j, j ≠ l → m'.face j = m.face j) → (m'.setHandler l pc).face k =
        if k = l then (some w, (m.workers.get? w).map Worker.generation, none) else m.face k := by
    intro pc none m' there' others
    rw [setHandler, face_modifyLink there']
    split
    · simp [Link.face, none]
    · rename_i other
      exact others k other
  have mine : (m.modifyLink l (fun link => { link with
      workerId := some w, generation := (m.workers.get? w).map Worker.generation })).links[l]? =
      some { link with workerId := some w, generation := (m.workers.get? w).map Worker.generation } := by
    simp [links_modifyLink, there]
  have others : ∀ j, j ≠ l → (m.modifyLink l (fun link => { link with
      workerId := some w, generation := (m.workers.get? w).map Worker.generation })).face j = m.face j := by
    intro j apart
    rw [face_modifyLink there, if_neg apart]
  simp only [install]
  split
  · rename_i previous _
    split
    · exact placed .reading rfl _ mine others
    · rename_i apart
      refine placed .replacing rfl _ ?_ ?_
      · rw [loseLink, links_modifyLink, if_neg (Ne.symm apart)]
        exact mine
      · intro j other
        rw [loseLink, face_modifyLink_of_same _ _ _ (by exact fun _ => rfl)]
        exact others j other
  · exact placed .reading rfl _ mine others

theorem seats_install (there : m.links[l]? = some link) (known : 1 ≤ m.workers.generationOf w) :
    (m.install l w).seats = m.seats.installed l w := by
  obtain ⟨worker, found⟩ : ∃ worker, m.workers.get? w = some worker := by
    cases found : m.workers.get? w with
    | none => simp [WorkerManager.generationOf, found] at known
    | some worker => exact ⟨worker, rfl⟩
  have stamp : (m.workers.get? w).map Worker.generation = some (m.workers.generationOf w) := by
    simp [WorkerManager.generationOf, found]
  refine Succession.State.ext ?_ ?_ ?_ ?_ ?_ ?_
  · simp only [seats, workers, install_scheduler, Succession.State.installed]
  · funext v
    simp only [seats, install_connections, Dict.get?_insert, Succession.State.installed, Function.update_apply]
  · funext k
    simp only [seats, face_install there, Succession.State.installed, Function.update_apply]
    split <;> rfl
  · funext k
    simp only [seats, face_install there, Succession.State.installed, Function.update_apply]
    split <;> rfl
  · funext k
    simp only [seats, face_install there, Succession.State.installed, Function.update_apply, stamp]
    split <;> rfl
  · simp only [seats, registrations, install_history, Succession.State.installed]

theorem cleanup_connections (m : Master) (l : LinkId) (link : Link) (w : WorkerId) :
    (m.cleanup l link).connections.get? w =
      if link.workerId = some w ∧ m.connections.get? w = some l then none else m.connections.get? w := by
  simp only [cleanup]
  split
  · rename_i v mine
    rw [mine]
    split
    · rename_i current
      simp only [modifyLink, failPending, retire, Dict.get?_erase]
      by_cases same : w = v
      · subst same
        simp [current]
      · simp [same, Ne.symm same]
    · rename_i other
      by_cases same : v = w
      · subst same
        simp [other, modifyLink, failPending]
      · simp [same, modifyLink, failPending]
  · rename_i unnamed
    simp [unnamed, modifyLink, failPending]

theorem cleanup_links (m : Master) (l : LinkId) (link : Link) : (m.cleanup l link).links =
    (m.modifyLink l (fun link => { link with lost := true, pc := .closing })).links := by
  simp only [cleanup]
  split
  · split <;> rfl
  · rfl

theorem seats_cleanup (there : m.links[l]? = some link) :
    (m.cleanup l link).seats = m.seats.left l := by
  have mine := face_of_there there
  have faces : ∀ k, (m.cleanup l link).face k =
      if k = l then (link.workerId, link.generation, none) else m.face k := by
    intro k
    rw [face, cleanup_links]
    exact face_modifyLink there k _
  have generations : (m.cleanup l link).workers.generationOf = m.workers.generationOf := by
    funext v
    rcases cleanup_scheduler m l link with same | ⟨w, _, _, _, _, stopped⟩
    · rw [workers, same]
    · rw [workers, stopped]
      exact generationOf_setStatus m.workers w v .stopped
  have history : (m.cleanup l link).history = m.history := by
    simp only [cleanup]
    split
    · split <;> rfl
    · rfl
  refine Succession.State.ext generations ?_ ?_ ?_ ?_ ?_
  · funext v
    simp only [seats, cleanup_connections, Succession.State.left, mine, Link.face]
  · funext k
    simp only [seats, faces, Succession.State.left, Function.update_apply]
    split <;> rfl
  · funext k
    simp only [seats, faces, Succession.State.left]
    split
    · rename_i same
      simp [same, mine, Link.face]
    · rfl
  · funext k
    simp only [seats, faces, Succession.State.left]
    split
    · rename_i same
      simp [same, mine, Link.face]
    · rfl
  · simp only [seats, registrations, history, Succession.State.left]

/-! ### The seats of the master are a succession -/

/-- A REGISTER is granted only while no other handler is between a granted
REGISTER for the worker and its installation, on a link that speaks for no other
worker. -/
def registersAlone (m : Master) : Action → Bool
  | .receive l message now =>
    match grantedRegistration m.workers message now with
    | some (w, _) => m.links.all (fun link => link.pc.registering ≠ some w) &&
        (m.links[l]?).all (fun link => link.workerId = none || link.workerId = some w)
    | none => true
  | _ => true

/-- A handler that ends before it installed its link leaves no older link in the
table. -/
def leavesNoOlder (m : Master) (a : Action) : Bool :=
  match m.ending a with
  | some (l, link) =>
    match link.pc.registering with
    | some w => m.connections.get? w = none || m.connections.get? w = some l
    | none => true
  | none => true

def orderlyRegistration (m : Master) (a : Action) : Prop :=
  m.registersAlone a = true ∧ m.leavesNoOlder a = true

instance (m : Master) (a : Action) : Decidable (m.orderlyRegistration a) :=
  inferInstanceAs (Decidable (_ ∧ _))

theorem claim_eq_some :
    m.seats.claim l = some w ↔ ∃ link, m.links[l]? = some link ∧ link.pc.registering = some w := by
  simp only [seats, face]
  cases m.links[l]? <;> simp [Link.face]

theorem unclaimed_of_alone (alone : m.registersAlone (.receive l message now) = true)
    (granted : grantedRegistration m.workers message now = some (w, ws)) (there : m.links[l]? = some link) :
    (∀ k, m.seats.claim k ≠ some w) ∧ (link.workerId = none ∨ link.workerId = some w) := by
  simp only [registersAlone, granted, Bool.and_eq_true, List.all_eq_true, there, Option.all_some,
    Bool.or_eq_true, decide_eq_true_eq] at alone
  refine ⟨fun k claims => ?_, alone.2⟩
  obtain ⟨other, found, registering⟩ := claim_eq_some.mp claims
  exact alone.1 other (List.mem_of_getElem? found) registering

theorem generation_of_claim (recorded : Succession.Recorded m.seats) (claims : m.seats.claim l = some w) :
    1 ≤ m.workers.generationOf w := by
  obtain ⟨g, member⟩ := recorded.claimed w l claims
  obtain ⟨low, high⟩ := recorded.logged w g l member
  exact low.trans high

theorem Micro.succession {strict : Prop} {mid : Master} (recorded : Succession.Recorded m.seats)
    (good : strict → m.orderlyRegistration a) (move : Micro m a mid) :
    mid.seats = m.seats ∨ Succession.Move strict m.seats mid.seats := by
  have same : SameSeats m mid → mid.seats = m.seats ∨ Succession.Move strict m.seats mid.seats :=
    fun h => .inl h.seats
  cases move with
  | skip _ => exact same (.refl m)
  | submit _ => exact same ⟨rfl, fun _ => rfl, fun _ => rfl, rfl⟩
  | accept => exact same (sameSeats_accept m)
  | @lose _ l _ => exact same (sameSeats_loseLink m l)
  | @cleanup _ l link named there turn _ =>
    rw [seats_cleanup there]
    refine .inr (.leave fun orderly w claims => ?_)
    obtain ⟨other, found, registering⟩ := claim_eq_some.mp claims
    obtain rfl : link = other := Option.some.inj (there.symm.trans found)
    have older := (good orderly).2
    simp only [leavesNoOlder, ending_of_cleanup named there turn, registering, Bool.or_eq_true,
      decide_eq_true_eq] at older
    exact older
  | resolve _ _ _ => exact same (sameSeats_setDispatch m _ _)
  | @handle l link message response now ws there reading _ handled =>
    rcases seats_handled there reading (handleRequest_handled handled) with kept | ⟨w, granted, moved⟩
    · exact same kept
    · have mine := face_of_there there
      rw [moved]
      refine .inr (.register ?_ fun orderly => ?_)
      · simp [seats, mine, Link.face, reading, HandlerPc.registering]
      · obtain ⟨alone, own⟩ := unclaimed_of_alone (good orderly).1 granted there
        refine ⟨alone, ?_⟩
        simpa [seats, mine, Link.face] using own
  | @install l link w there claims =>
    have claimed : m.seats.claim l = some w := claim_eq_some.mpr ⟨link, there, claims⟩
    rw [seats_install there (generation_of_claim recorded claimed)]
    exact .inr (.install claimed)
  | handler _ there none quiet _ =>
    exact same (sameSeats_setHandler there ((quiet_registering quiet).trans none.symm))
  | startRaises _ _ => exact same (sameSeats_setDispatch m _ _)
  | orphan _ _ _ _ => exact same ((sameSeats_startedTask m _).trans (sameSeats_setDispatch _ _ _))
  | unreached _ _ _ _ _ =>
    exact same ((sameSeats_startedTask m _).trans (unreachable_outcome _ _ _ _ _ _).sameSeats)
  | unencodable _ _ _ _ _ _ =>
    exact same ((sameSeats_startedTask m _).trans ((sameSeats_popPending _ _ _ _).trans
      (unreachable_outcome _ _ _ _ _ _).sameSeats))
  | overflow _ _ _ _ _ _ =>
    exact same ((sameSeats_startedTask m _).trans ((sameSeats_popPending _ _ _ _).trans
      (sameSeats_setDispatch _ _ _)))
  | write _ _ _ _ _ => exact same ((sameSeats_startedTask m _).trans (sameSeats_writeTask _ _ _ _ _ _))
  | drained _ => exact same (sameSeats_setDispatch m _ _)
  | sendLost _ _ _ =>
    exact same ((sameSeats_popPending m _ _ _).trans (unreachable_outcome _ _ _ _ _ _).sameSeats)
  | replyLost _ =>
    exact same ((sameSeats_popPending m _ _ _).trans (unreachable_outcome _ _ _ _ _ _).sameSeats)
  | replied _ =>
    exact same ((sameSeats_popPending m _ _ _).trans (handleReply_outcome _ _ _ _ _ _).sameSeats)
  | abort _ => exact same ((sameSeats_popPending m _ _ _).trans (sameSeats_setDispatch _ _ _))
  | finish _ => exact same (sameSeats_finishDispatch m _ _ _)
  | abandon _ => exact same (sameSeats_setDispatch m _ _)
  | stale _ => exact same (sameSeats_condemnedStale m _)
  | clear => exact .inr .clear

theorem Loop.sameSeats (loop : Loop m m') : SameSeats m m' := by
  cases loop with
  | grant _ _ _ _ => exact ⟨rfl, fun _ => rfl, fun v => generationOf_setStatus m.workers _ v .busy, rfl⟩
  | spawn _ => exact ⟨rfl, fun _ => rfl, fun _ => rfl, rfl⟩
  | loops _ _ _ => exact ⟨rfl, fun _ => rfl, fun _ => rfl, rfl⟩

theorem step_succession (strict : Prop) (recorded : Succession.Recorded m.seats)
    (good : strict → m.orderlyRegistration a) (taken : m.step a = some m') :
    m'.seats = m.seats ∨ Succession.Move strict m.seats m'.seats := by
  refine step_preserves (I := fun n => n.seats = m.seats ∨ Succession.Move strict m.seats n.seats) taken
    (fun mid move => move.succession recorded good) (fun s s' loop moved => ?_)
  rw [loop.sameSeats.seats]
  exact moved

theorem recorded_of_run {ok : Master → Action → Prop} (run : Steps step ok initial m) :
    Succession.Recorded m.seats := by
  refine run.invariant (I := fun n => Succession.Recorded n.seats) ⟨nofun, nofun, nofun, nofun⟩ ?_
  intro n a n' recorded _ taken
  rcases step_succession False recorded False.elim taken with same | moved
  · rw [same]
    exact recorded
  · exact recorded.step moved

theorem orderly_of_run (run : Steps step orderlyRegistration initial m) :
    Succession.Orderly m.seats := by
  refine run.invariant_with (I := fun n => Succession.Orderly n.seats) (fun n before => recorded_of_run before)
    ⟨nofun, nofun, nofun, nofun, nofun⟩ ?_
  intro n a n' recorded orderly good taken
  rcases step_succession True recorded (fun _ => good) taken with same | moved
  · rw [same]
    exact orderly
  · exact orderly.step recorded moved

theorem mem_registrations {generation : Nat} :
    (w, generation, l) ∈ m.registrations ↔ Event.registered w generation l ∈ m.history := by
  simp only [registrations, List.mem_filterMap]
  constructor
  · rintro ⟨event, member, same⟩
    cases event <;> simp_all [Event.registeredOf]
  · intro member
    exact ⟨_, member, rfl⟩

theorem worker_of_generation (known : 1 ≤ m.workers.generationOf w) :
    ∃ worker, m.workers.get? w = some worker ∧ m.workers.generationOf w = worker.generation := by
  cases found : m.workers.get? w with
  | none => simp [WorkerManager.generationOf, found] at known
  | some worker => exact ⟨worker, rfl, by simp [WorkerManager.generationOf, found]⟩

theorem stamp_eq_some {generation : Nat} (stamp : m.seats.stamp l = some generation) :
    ∃ link, m.links[l]? = some link ∧ link.generation = some generation := by
  simp only [seats, face] at stamp
  cases there : m.links[l]? with
  | none => simp [there] at stamp
  | some link => exact ⟨link, rfl, by simpa [there, Link.face] using stamp⟩

theorem lost_modifyLink (m : Master) (l k : LinkId) (same : ∀ link, (f link).lost = link.lost) :
    ((m.modifyLink l f).links[k]?).map Link.lost = (m.links[k]?).map Link.lost := by
  rw [links_modifyLink]
  split
  · cases m.links[k]? <;> simp [same]
  · rfl

theorem lost_install {k : LinkId} (spared : m.connections.get? w ≠ some k) :
    ((m.install l w).links[k]?).map Link.lost = (m.links[k]?).map Link.lost := by
  simp only [install]
  split
  · rename_i previous current
    have other : k ≠ previous := by
      rintro rfl
      exact spared current
    split
    · rw [setHandler, lost_modifyLink _ _ _ (by exact fun _ => rfl)]
      exact lost_modifyLink m l k (fun _ => rfl)
    · rw [setHandler, lost_modifyLink _ _ _ (by exact fun _ => rfl), loseLink, links_modifyLink, if_neg other]
      exact lost_modifyLink m l k (fun _ => rfl)
  · rw [setHandler, lost_modifyLink _ _ _ (by exact fun _ => rfl)]
    exact lost_modifyLink m l k (fun _ => rfl)

/-- A handler whose registration is not the newest of `w` neither replaces nor
pops the link in the table, and closes neither it nor a link that is registering. -/
theorem older_handler_spares {k : LinkId} (orderly : Succession.Orderly m.seats) (named : a.link? = some k)
    (other : k ≠ l) (older : (w, m.seats.generation w, k) ∉ m.seats.log) (taken : m.step a = some m') :
    (m.connections.get? w = some l → m'.connections.get? w = some l) ∧
    (m.connections.get? w = some l ∨ m.seats.claim l = some w →
      (m'.links[l]?).map Link.lost = (m.links[l]?).map Link.lost) := by
  have apart : l ≠ k := Ne.symm other
  have move := step_micro (.inl (by simp [named])) taken
  cases move with
  | skip _ => exact ⟨id, fun _ => rfl⟩
  | @cleanup _ j link own _ _ _ =>
    obtain rfl : k = j := Option.some.inj (named.symm.trans own)
    refine ⟨fun seated => ?_, fun _ => by rw [cleanup_links, links_modifyLink, if_neg apart]⟩
    rw [cleanup_connections, if_neg, seated]
    rintro ⟨_, mine⟩
    exact apart (Option.some.inj (seated.symm.trans mine))
  | resolve _ _ _ => exact ⟨id, fun _ => rfl⟩
  | handle _ _ _ _ => exact ⟨id, fun _ => lost_modifyLink m _ l (fun _ => rfl)⟩
  | @install j link v there claims =>
    obtain rfl : j = k := Option.some.inj named
    have claimed : m.seats.claim j = some v := claim_eq_some.mpr ⟨link, there, claims⟩
    have distinct : w ≠ v := by
      rintro rfl
      exact older (orderly.claimed w j claimed).1
    refine ⟨fun seated => ?_, fun held => lost_install fun current => ?_⟩
    · rw [install_connections, Dict.get?_insert, if_neg distinct]
      exact seated
    · -- a link in the seat of `v` speaks for `v` alone
      have mine : m.seats.name l = some v := orderly.named v l current
      rcases held with seated | registering
      · have also : m.seats.name l = some w := orderly.named w l seated
        exact distinct (Option.some.inj (also.symm.trans mine))
      · rcases (orderly.claimed w l registering).2 with none | also
        · rw [mine] at none
          cases none
        · exact distinct (Option.some.inj (also.symm.trans mine))
  | handler _ _ _ _ _ => exact ⟨id, fun _ => lost_modifyLink m _ l (fun _ => rfl)⟩
  | lose why => rcases why with rfl | rfl <;> cases named
  | startRaises _ why => rcases why with rfl | ⟨⟨_, rfl⟩, _⟩ <;> cases named
  | _ => cases named

/-- In a run of orderly registrations, while no handler is between a granted
REGISTER for `w` and its installation, the link in the table is the one `w`'s
current generation was registered on; and no handler of an older registration
replaces, pops or closes the link of a newer one. -/
theorem connections_follow_newest {m : Master} (run : Steps step orderlyRegistration initial m)
    (w : WorkerId) (l : LinkId) :
    (m.connections.get? w = some l →
      (∀ (k : LinkId) link, m.links[k]? = some link → link.pc.registering ≠ some w) →
      ∃ worker link, m.workers.get? w = some worker ∧ m.links[l]? = some link ∧
        link.generation = some worker.generation ∧
        Event.registered w worker.generation l ∈ m.history ∧
        ∀ k, Event.registered w worker.generation k ∈ m.history → k = l) ∧
    (∀ a k m', a.link? = some k → k ≠ l →
      Event.registered w (m.workers.generationOf w) k ∉ m.history → m.step a = some m' →
      (m.connections.get? w = some l → m'.connections.get? w = some l) ∧
      (m.connections.get? w = some l ∨
          (∃ link, m.links[l]? = some link ∧ link.pc.registering = some w) →
        (m'.links[l]?).map Link.lost = (m.links[l]?).map Link.lost)) := by
  have orderly := orderly_of_run run
  have recorded := recorded_of_run run
  constructor
  · intro seated settled
    have unclaimed : ∀ k, m.seats.claim k ≠ some w := by
      intro k claims
      obtain ⟨link, there, registering⟩ := claim_eq_some.mp claims
      exact settled k link there registering
    obtain ⟨stamp, member, unique⟩ := orderly.newest seated unclaimed
    obtain ⟨link, there, generation⟩ := stamp_eq_some stamp
    obtain ⟨worker, known, same⟩ := worker_of_generation (recorded.logged w _ l member).1
    have newest : m.seats.generation w = worker.generation := same
    rw [newest] at member unique generation
    exact ⟨worker, link, known, there, generation, mem_registrations.mp member,
      fun k other => unique k (mem_registrations.mpr other)⟩
  · intro a k m' named other older taken
    have unlogged : (w, m.seats.generation w, k) ∉ m.seats.log := fun member => older (mem_registrations.mp member)
    obtain ⟨keeps, spares⟩ := older_handler_spares orderly named other unlogged taken
    refine ⟨keeps, fun held => spares (held.imp id fun registering => claim_eq_some.mpr registering)⟩

/-- The worker misses its heartbeats and registers again on a second connection. -/
def returningRun : List Action :=
  [.accept, .receive 0 (registerRequest "w") 0, .replySent 0, .startMonitor, .monitorTick 0 6000, .accept,
    .receive 1 (registerRequest "w") 6001, .replySent 1]

theorem returningRun_newest : ∃ m, Steps step orderlyRegistration initial m ∧
    m.connections.get? "w" = some 1 ∧
    (∃ worker link, m.workers.get? "w" = some worker ∧ m.links[1]? = some link ∧
      link.generation = some worker.generation ∧ Event.registered "w" worker.generation 1 ∈ m.history) ∧
    ∃ m', m.step (.handlerRaises 0) = some m' ∧ m'.connections.get? "w" = some 1 := by
  obtain ⟨m, run, seated, settled, log, generation, ends⟩ : ∃ m, Steps step orderlyRegistration initial m ∧
      m.connections.get? "w" = some 1 ∧ (∀ link ∈ m.links, link.pc.registering = none) ∧
      m.registrations = [("w", 1, 0), ("w", 2, 1)] ∧ m.workers.generationOf "w" = 2 ∧
      (m.step (.handlerRaises 0)).isSome = true := replay_reaches returningRun (by decide)
  obtain ⟨follows, spares⟩ := connections_follow_newest run "w" 1
  obtain ⟨worker, link, known, there, stamp, member, _⟩ := follows seated (fun k link there => by
    rw [settled link (List.mem_of_getElem? there)]
    exact nofun)
  obtain ⟨m', taken⟩ := Option.isSome_iff_exists.mp ends
  have older : Event.registered "w" (m.workers.generationOf "w") 0 ∉ m.history := by
    rw [generation, ← mem_registrations, log]
    decide
  refine ⟨m, run, seated, ⟨worker, link, known, there, stamp, member⟩, m', taken, ?_⟩
  exact (spares (.handlerRaises 0) 0 m' rfl (by decide) older taken).1 seated

/-- The REGISTER_ACK of the first registration is still being sent when the worker
is declared FAILED, registers on a second connection and is installed there. -/
def overtakenRun : List Action :=
  [.accept, .receive 0 (registerRequest "w") 0, .startMonitor, .monitorTick 0 6000, .accept,
    .receive 1 (registerRequest "w") 6001, .replySent 1, .replySent 0]

theorem overtakenRun_older_installed : ∃ m, Steps step anyStep initial m ∧
    (∀ link ∈ m.links, link.pc.registering = none) ∧ m.connections.get? "w" = some 0 ∧
    m.workers.generationOf "w" = 2 ∧ Event.registered "w" 2 1 ∈ m.history ∧
    Event.registered "w" 2 0 ∉ m.history ∧ (m.links[1]?).map Link.lost = some true := by
  obtain ⟨m, run, settled, seated, generation, log, lost⟩ : ∃ m, Steps step anyStep initial m ∧
      (∀ link ∈ m.links, link.pc.registering = none) ∧ m.connections.get? "w" = some 0 ∧
      m.workers.generationOf "w" = 2 ∧ m.registrations = [("w", 1, 0), ("w", 2, 1)] ∧
      (m.links[1]?).map Link.lost = some true := replay_reaches overtakenRun (by decide)
  refine ⟨m, run, settled, seated, generation, ?_, ?_, lost⟩
  · rw [← mem_registrations, log]
    decide
  · rw [← mem_registrations, log]
    decide

/-! ### Who speaks for a worker -/

/-- The worker a HEARTBEAT or SHUTDOWN is about. -/
def speaksFor (message : Message) : Option WorkerId :=
  match message.type, argument message "worker_id" with
  | .heartbeat, .str w | .shutdown, .str w => some w
  | _, _ => none

/-- Where a HEARTBEAT or SHUTDOWN is read, and for whom. -/
def spoken : Action → Option (LinkId × WorkerId)
  | .receive l message _ => (speaksFor message).map (fun w => (l, w))
  | _ => none

/-- A HEARTBEAT or SHUTDOWN about a known worker names the worker that its
connection registered. -/
def ownVoice (m : Master) (a : Action) : Prop :=
  ∀ voice ∈ spoken a, m.workers.contains voice.2 = true → (m.links[voice.1]?).bind Link.workerId = some voice.2

instance (m : Master) (a : Action) : Decidable (m.ownVoice a) :=
  inferInstanceAs (Decidable (∀ voice ∈ spoken a, _ → _))

theorem workers_cleanup (changed : (m.cleanup l link).workers.get? w ≠ m.workers.get? w) :
    m.connections.get? w = some l ∧ link.workerId = some w := by
  rcases cleanup_scheduler m l link with same | ⟨v, mine, current, _, _, stopped⟩
  · rw [workers, same] at changed
    exact absurd rfl changed
  · rw [workers, stopped, Scheduler.setWorkerStatus_workers, WorkerManager.get?_setStatus] at changed
    split at changed
    · rename_i same
      rw [same]
      exact ⟨current, mine⟩
    · exact absurd rfl changed

/-- A HEARTBEAT or SHUTDOWN that changes a worker's record touches the worker it
names, which is known. -/
theorem handled_speaks {ws' : WorkerManager} (handled : Handled ws message now response ws')
    (voice : message.type = .heartbeat ∨ message.type = .shutdown) (changed : ws'.get? w ≠ ws.get? w) :
    speaksFor message = some w ∧ ws.contains w = true := by
  cases handled with
  | registered granted _ =>
    obtain ⟨_, type, _⟩ := grantedRegistration_some granted
    rw [type] at voice
    rcases voice with h | h <;> cases h
  | unchanged _ _ => exact absurd rfl changed
  | @beat v type named known _ =>
    obtain rfl : w = v := by
      by_contra other
      rw [Dict.get?_modify, if_neg other] at changed
      exact changed rfl
    exact ⟨by simp [speaksFor, type, named], known⟩
  | @drained v worker type named known _ _ =>
    obtain rfl : w = v := by
      by_contra other
      rw [WorkerManager.get?_setStatus, if_neg other] at changed
      exact changed rfl
    exact ⟨by simp [speaksFor, type, named], by simp [Dict.contains, known]⟩

/-- What a HEARTBEAT or SHUTDOWN changes of a worker's record, it changes on the
link in the table, whose handler bears the worker's name. -/
theorem voice_of_current (own : m.ownVoice (.receive l message now))
    (taken : m.step (.receive l message now) = some m') (voice : message.type = .heartbeat ∨ message.type = .shutdown)
    (changed : m'.workers.get? w ≠ m.workers.get? w) :
    m.connections.get? w = some l ∧ m.seats.name l = some w := by
  have move := step_micro (.inl rfl) taken
  generalize action : Action.receive l message now = a at move
  cases move with
  | @cleanup _ k link named there _ _ =>
    obtain rfl : l = k := by
      rw [← action] at named
      exact Option.some.inj named
    obtain ⟨current, mine⟩ := workers_cleanup changed
    exact ⟨current, by simp [seats, face_of_there there, Link.face, mine]⟩
  | @handle k link heard response time ws there reading current handled =>
    cases action
    obtain ⟨speaks, known⟩ := handled_speaks (handleRequest_handled handled) voice changed
    have mine : link.workerId = some w := by
      simpa [there] using own (l, w) (by simp [spoken, speaks]) known
    refine ⟨?_, by simp [seats, face_of_there there, Link.face, mine]⟩
    rcases current with none | seated
    · rw [mine] at none
      cases none
    · simpa [isCurrentLink, mine] using seated
  | lose why => rcases why with rfl | rfl <;> cases action
  | startRaises _ why => rcases why with rfl | ⟨⟨_, rfl⟩, _⟩ <;> cases action
  | skip | resolve | handler => exact absurd rfl changed
  | _ => cases action

/-- In a run in which connections speak only for the worker they registered, a
HEARTBEAT or SHUTDOWN changes a worker's record only when it is read on the link
that is in the table for that worker, and on which a REGISTER for it was granted. -/
theorem current_link_speaks {m m' : Master} {l : LinkId} {message : Message} {now : Time} {w : WorkerId}
    (run : Steps step ownVoice initial m) (own : m.ownVoice (.receive l message now))
    (taken : m.step (.receive l message now) = some m')
    (voice : message.type = .heartbeat ∨ message.type = .shutdown)
    (changed : m'.workers.get? w ≠ m.workers.get? w) :
    m.connections.get? w = some l ∧ ∃ generation, Event.registered w generation l ∈ m.history := by
  obtain ⟨current, named⟩ := voice_of_current own taken voice changed
  obtain ⟨generation, member⟩ := (recorded_of_run run).named w l named
  exact ⟨current, generation, mem_registrations.mp member⟩

def heartbeat (w : WorkerId) : Message := ⟨.heartbeat, "req-3", [("worker_id", .str w)]⟩

/-- A worker registers and is installed. -/
def registeredRun : List Action := [.accept, .receive 0 (registerRequest "w") 0, .replySent 0]

theorem heartbeat_on_current_link : ∃ m m', Steps step ownVoice initial m ∧
    m.step (.receive 0 (heartbeat "w") 7) = some m' ∧ m.ownVoice (.receive 0 (heartbeat "w") 7) ∧
    m'.workers.get? "w" ≠ m.workers.get? "w" ∧ m.connections.get? "w" = some 0 ∧
    ∃ generation, Event.registered "w" generation 0 ∈ m.history := by
  obtain ⟨m, m', run, taken, own, changed⟩ : ∃ m m', Steps step ownVoice initial m ∧
      m.step (.receive 0 (heartbeat "w") 7) = some m' ∧ m.ownVoice (.receive 0 (heartbeat "w") 7) ∧
      m'.workers.get? "w" ≠ m.workers.get? "w" :=
    replay_then registeredRun (Action.receive 0 (heartbeat "w") 7) (by decide)
  exact ⟨m, m', run, taken, own, changed, current_link_speaks run own taken (.inl rfl) changed⟩

/-- A second connection has its REGISTER for the worker refused and stays open. -/
def impostorRun : List Action :=
  [.accept, .receive 0 (registerRequest "w") 0, .replySent 0, .accept, .receive 1 (registerRequest "w") 1,
    .replySent 1]

theorem impostorRun_drains : ∃ m m', Steps step anyStep initial m ∧
    m.step (.receive 1 (shutdownRequest "w") 2) = some m' ∧ m.connections.get? "w" = some 0 ∧
    m.workers.statusOf "w" = some .idle ∧ m'.workers.statusOf "w" = some .draining :=
  replay_then impostorRun (Action.receive 1 (shutdownRequest "w") 2) (by decide)

end Master
end DistributedCompute
