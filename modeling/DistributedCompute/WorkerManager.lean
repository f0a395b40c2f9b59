import DistributedCompute.Dict
import DistributedCompute.Protocol

/-! The in-memory registry of `master/worker_manager.py`. A worker record is
stored under its worker_id and mutated in place; the clock is an argument. -/
namespace DistributedCompute
open Py

abbrev WorkerId := String
abbrev TaskId := String

/-- Clock readings, in milliseconds. -/
abbrev Time := Int

inductive WorkerStatus
  | registered
  | idle
  | busy
  | failed
  | draining
  | stopped
  deriving DecidableEq, Repr

/-- REPLACEABLE_WORKER_STATUSES: the states a new registration may take over. -/
def WorkerStatus.replaceable : WorkerStatus → Bool
  | .failed | .stopped => true
  | _ => false

structure Worker where
  host : String
  port : Int
  status : WorkerStatus
  lastHeartbeat : Option Time
  generation : Nat
  deriving DecidableEq, Repr

abbrev WorkerManager := Dict WorkerId Worker

inductive RegisterError
  | duplicateWorker (text : String)
  | valueError (text : String)
  deriving DecidableEq, Repr

def nonEmptyStr : Val → Option String
  | .str s => if s = "" then none else some s
  | _ => none

/-- A bool is an int in Python; it is not a port. -/
def tcpPort : Val → Option Int
  | .int n => if 0 < n ∧ n < 65536 then some n else none
  | _ => none

namespace WorkerManager

def registerWorker (ws : WorkerManager) (workerId host port : Val) (now : Time) :
    Except RegisterError (WorkerId × WorkerManager) :=
  match nonEmptyStr workerId, nonEmptyStr host, tcpPort port with
  | none, _, _ => .error (.valueError "worker_id must be a non-empty string")
  | some _, none, _ => .error (.valueError "host must be a non-empty string")
  | some _, some _, none => .error (.valueError "port must be a valid TCP port number")
  | some w, some h, some p =>
    match ws.get? w with
    | some existing =>
      if existing.status.replaceable then
        .ok (w, ws.insert w ⟨h, p, .idle, some now, existing.generation + 1⟩)
      else .error (.duplicateWorker s!"Worker already registered: {w}")
    | none => .ok (w, ws.insert w ⟨h, p, .idle, some now, 1⟩)

def setStatus (ws : WorkerManager) (w : WorkerId) (status : WorkerStatus) : WorkerManager :=
  ws.modify w (fun worker => { worker with status })

/-- The error is the text of the `WorkerNotFoundError` raised. -/
def updateStatus (ws : WorkerManager) (w : WorkerId) (status : WorkerStatus) :
    Except String WorkerManager :=
  if ws.contains w then .ok (ws.setStatus w status) else .error s!"Unknown worker: {w}"

def recordHeartbeat (ws : WorkerManager) (w : WorkerId) (now : Time) : Except String WorkerManager :=
  if ws.contains w then
    .ok (Dict.modify ws w (fun worker => { worker with lastHeartbeat := some now }))
  else .error s!"Unknown worker: {w}"

end WorkerManager

def Worker.stale (timeout now : Time) (worker : Worker) : Bool :=
  match worker.lastHeartbeat with
  | none => false
  | some beat => worker.status ≠ .stopped && now - beat > timeout

namespace WorkerManager

/-- Marks the stale workers FAILED and returns them. -/
def getStaleWorkers (ws : WorkerManager) (timeout now : Time) : List WorkerId × WorkerManager :=
  ((ws.entries.filter (fun e => e.2.stale timeout now)).map Prod.fst,
    ws.mapValues (fun _ worker =>
      if worker.stale timeout now then { worker with status := .failed } else worker))

def statusOf (ws : WorkerManager) (w : WorkerId) : Option WorkerStatus :=
  (ws.get? w).map Worker.status

theorem get?_setStatus (ws : WorkerManager) (w v : WorkerId) (status : WorkerStatus) :
    (ws.setStatus w status).get? v =
      if v = w then (ws.get? v).map (fun worker => { worker with status }) else ws.get? v :=
  Dict.get?_modify ws w v _

theorem statusOf_setStatus (ws : WorkerManager) (w v : WorkerId) (status : WorkerStatus) :
    (ws.setStatus w status).statusOf v =
      if v = w then (ws.statusOf v).map (fun _ => status) else ws.statusOf v := by
  unfold statusOf
  rw [get?_setStatus]
  split
  · simp only [Option.map_map, Function.comp_def]
  · rfl

/-- A heartbeat leaves every status alone. -/
theorem statusOf_beat (ws : WorkerManager) (w v : WorkerId) (now : Time) :
    WorkerManager.statusOf (Dict.modify ws w (fun worker => { worker with lastHeartbeat := some now })) v =
      ws.statusOf v := by
  simp only [statusOf, Dict.get?_modify]
  split
  · simp only [Option.map_map, Function.comp_def]
  · rfl

/-- A successful registration installs an IDLE record, of the first generation
or of the one after a replaceable record's. -/
theorem registerWorker_eq_ok {ws ws' : WorkerManager} {a b c : Val} {now : Time} {w : WorkerId}
    (h : ws.registerWorker a b c now = .ok (w, ws')) :
    a = .str w ∧ ∃ worker, ws' = ws.insert w worker ∧ worker.status = .idle ∧
      worker.lastHeartbeat = some now ∧
      ((ws.get? w = none ∧ worker.generation = 1) ∨
        ∃ old, ws.get? w = some old ∧ old.status.replaceable = true ∧
          worker.generation = old.generation + 1) := by
  unfold registerWorker at h
  split at h <;> try cases h
  rename_i v host port hv _ _
  have named : a = .str v := by
    unfold nonEmptyStr at hv
    split at hv
    · split at hv
      · cases hv
      · rw [Option.some.inj hv]
    · cases hv
  split at h
  · rename_i existing found
    split at h
    · rename_i free
      cases h
      exact ⟨named, _, rfl, rfl, rfl, .inr ⟨existing, found, free, rfl⟩⟩
    · cases h
  · rename_i absent
    cases h
    exact ⟨named, _, rfl, rfl, rfl, .inl ⟨absent, rfl⟩⟩

theorem mem_staleWorkers {ws : WorkerManager} {timeout now : Time} {w : WorkerId} :
    w ∈ (ws.getStaleWorkers timeout now).1 ↔
      ∃ worker, ws.get? w = some worker ∧ worker.stale timeout now = true := by
  simp only [getStaleWorkers, List.mem_map, List.mem_filter]
  constructor
  · rintro ⟨⟨v, worker⟩, ⟨member, old⟩, rfl⟩
    exact ⟨worker, Dict.mem_entries.mp member, old⟩
  · rintro ⟨worker, found, old⟩
    exact ⟨(w, worker), ⟨Dict.mem_entries.mpr found, old⟩, rfl⟩

theorem get?_staleWorkers (ws : WorkerManager) (timeout now : Time) (w : WorkerId) :
    (ws.getStaleWorkers timeout now).2.get? w = (ws.get? w).map (fun worker =>
      if worker.stale timeout now then { worker with status := .failed } else worker) :=
  Dict.get?_mapValues ws _ w

end WorkerManager
end DistributedCompute
