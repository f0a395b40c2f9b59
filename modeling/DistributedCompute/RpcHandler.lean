import DistributedCompute.WorkerManager

/-! `master/rpc_handler.py`: one request in, one response out, with the worker
registry threaded through. An exception that escapes a handler (a lookup with
an unhashable worker_id) is an error with its text. -/
namespace DistributedCompute
open Py

/-- `str(value)` of a value that a dict can be looked up with; arrays and objects raise
before they are shown. -/
def pyText : Val → String
  | .none => "None"
  | .bool b => if b then "True" else "False"
  | .int n => toString n
  | .float bits => floatText bits
  | .str s => s
  | .list _ => "list"
  | .tuple _ => "tuple"
  | .dict _ => "dict"
  | .object ty => s!"<{ty} object>"

def argument (request : Message) (name : String) : Val := (request.get? name).getD .none

def buildError (requestId code text : String) : Message :=
  buildMessage .error requestId [("code", .str code), ("message", .str text)]

def handlePing (request : Message) : Message :=
  buildMessage .pong request.requestId [("status", .str "success")]

def handleRegister (ws : WorkerManager) (request : Message) (now : Time) : Message × WorkerManager :=
  match ws.registerWorker (argument request "worker_id") (argument request "host")
      (argument request "port") now with
  | .error (.duplicateWorker _) =>
    (buildError request.requestId "DUPLICATE_WORKER" "Worker already registered", ws)
  | .error (.valueError text) => (buildError request.requestId "INVALID_PAYLOAD" text, ws)
  | .ok (_, ws') =>
    (buildMessage .registerAck request.requestId
      [("status", .str "success"), ("message", .str "Worker registered")], ws')

def unhashable (typeName : String) : String := s!"unhashable type: '{typeName}'"

def unknownWorker (request : Message) : Message :=
  let name := pyText (argument request "worker_id")
  buildError request.requestId "UNKNOWN_WORKER" s!"Unknown worker: {name}"

def handleHeartbeat (ws : WorkerManager) (request : Message) (now : Time) :
    Except String (Message × WorkerManager) :=
  match (argument request "worker_id").lookup with
  | .unhashable ty => .error (unhashable ty)
  | .absent => .ok (unknownWorker request, ws)
  | .named w =>
    match ws.recordHeartbeat w now with
    | .error _ => .ok (unknownWorker request, ws)
    | .ok ws' =>
      .ok (buildMessage .heartbeatAck request.requestId [("status", .str "success")], ws')

/-- Only a live worker is moved to DRAINING; any known worker is acknowledged. -/
def handleShutdown (ws : WorkerManager) (request : Message) : Except String (Message × WorkerManager) :=
  match (argument request "worker_id").lookup with
  | .unhashable ty => .error (unhashable ty)
  | .absent => .ok (unknownWorker request, ws)
  | .named w =>
    match ws.get? w with
    | none => .ok (unknownWorker request, ws)
    | some worker =>
      let ws' := match worker.status with
        | .registered | .idle | .busy => ws.setStatus w .draining
        | _ => ws
      .ok (buildMessage .shutdownAck request.requestId [("status", .str "success")], ws')

def handleRequest (ws : WorkerManager) (request : Message) (now : Time) :
    Except String (Message × WorkerManager) :=
  match request.type with
  | .ping => .ok (handlePing request, ws)
  | .register => .ok (handleRegister ws request now)
  | .heartbeat => handleHeartbeat ws request now
  | .shutdown => handleShutdown ws request
  | type => .ok (buildError request.requestId "UNKNOWN_COMMAND" s!"Unsupported RPC type: {type.name}", ws)

/-- The registration a REGISTER request is granted, with the registry it leaves. -/
def grantedRegistration (ws : WorkerManager) (request : Message) (now : Time) :
    Option (WorkerId × WorkerManager) :=
  if request.type = .register then
    match ws.registerWorker (argument request "worker_id") (argument request "host")
        (argument request "port") now with
    | .ok granted => some granted
    | .error _ => none
  else none

def liveStatus : WorkerStatus → Bool
  | .registered | .idle | .busy => true
  | _ => false

/-- Everything a request can do to the registry, with the response it gets. -/
inductive Handled (ws : WorkerManager) (request : Message) (now : Time) (response : Message) :
    WorkerManager → Prop
  | registered {w : WorkerId} {ws' : WorkerManager} :
      grantedRegistration ws request now = some (w, ws') → response.type = .registerAck →
      Handled ws request now response ws'
  | unchanged : grantedRegistration ws request now = none → response.type ≠ .registerAck →
      Handled ws request now response ws
  | beat {w : WorkerId} : request.type = .heartbeat → argument request "worker_id" = .str w →
      ws.contains w = true → response.type ≠ .registerAck →
      Handled ws request now response
        (Dict.modify ws w (fun worker => { worker with lastHeartbeat := some now }))
  | drained {w : WorkerId} {worker : Worker} : request.type = .shutdown →
      argument request "worker_id" = .str w → ws.get? w = some worker →
      liveStatus worker.status = true → response.type ≠ .registerAck →
      Handled ws request now response (ws.setStatus w .draining)

theorem lookup_named {v : Val} {w : String} (h : v.lookup = .named w) : v = .str w := by
  cases v <;> simp_all [Val.lookup]

variable {ws ws' : WorkerManager} {request response : Message} {now : Time}

theorem grantedRegistration_of_ne (h : request.type ≠ .register) : grantedRegistration ws request now = none := by
  rw [grantedRegistration, if_neg h]

theorem grantedRegistration_some {w : WorkerId} (granted : grantedRegistration ws request now = some (w, ws')) :
    ∃ worker, request.type = .register ∧ argument request "worker_id" = .str w ∧ ws' = ws.insert w worker ∧
      worker.status = .idle ∧ ((ws.get? w = none ∧ worker.generation = 1) ∨
        ∃ old, ws.get? w = some old ∧ old.status.replaceable = true ∧
          worker.generation = old.generation + 1) := by
  unfold grantedRegistration at granted
  split at granted
  · rename_i type
    split at granted
    · rename_i accepted
      cases granted
      obtain ⟨named, worker, inserted, idle, _, generation⟩ := WorkerManager.registerWorker_eq_ok accepted
      exact ⟨worker, type, named, inserted, idle, generation⟩
    · cases granted
  · cases granted

theorem unknownWorker_type (request : Message) : (unknownWorker request).type ≠ .registerAck := by
  simp [unknownWorker, buildError, buildMessage]

theorem handleRegister_handled (type : request.type = .register)
    (h : handleRegister ws request now = (response, ws')) : Handled ws request now response ws' := by
  unfold handleRegister at h
  split at h
  · rename_i refused
    cases h
    exact .unchanged (by simp [grantedRegistration, type, refused]) (by simp [buildError, buildMessage])
  · rename_i refused
    cases h
    exact .unchanged (by simp [grantedRegistration, type, refused]) (by simp [buildError, buildMessage])
  · rename_i w granted accepted
    cases h
    exact .registered (w := w) (by simp [grantedRegistration, type, accepted]) rfl

theorem handleHeartbeat_handled (type : request.type = .heartbeat)
    (h : handleHeartbeat ws request now = .ok (response, ws')) :
    Handled ws request now response ws' := by
  have other : grantedRegistration ws request now = none :=
    grantedRegistration_of_ne (by simp [type])
  unfold handleHeartbeat at h
  split at h
  · cases h
  · cases h
    exact .unchanged other (unknownWorker_type request)
  · rename_i w isNamed
    unfold WorkerManager.recordHeartbeat at h
    by_cases known : ws.contains w = true
    · simp only [known, if_true, Except.ok.injEq, Prod.mk.injEq] at h
      obtain ⟨rfl, rfl⟩ := h
      exact .beat type (lookup_named isNamed) known (by simp [buildMessage])
    · simp only [known, Bool.false_eq_true, if_false, Except.ok.injEq, Prod.mk.injEq] at h
      obtain ⟨rfl, rfl⟩ := h
      exact .unchanged other (unknownWorker_type request)

theorem handleShutdown_handled (type : request.type = .shutdown)
    (h : handleShutdown ws request = .ok (response, ws')) : Handled ws request now response ws' := by
  have other : grantedRegistration ws request now = none :=
    grantedRegistration_of_ne (by simp [type])
  unfold handleShutdown at h
  split at h
  · cases h
  · cases h
    exact .unchanged other (unknownWorker_type request)
  · rename_i w isNamed
    split at h
    · cases h
      exact .unchanged other (unknownWorker_type request)
    · rename_i worker found
      simp only [Except.ok.injEq, Prod.mk.injEq] at h
      obtain ⟨rfl, rfl⟩ := h
      -- the three live statuses drain, the other three are only acknowledged
      cases status : worker.status
      case registered | idle | busy =>
        exact .drained type (lookup_named isNamed) found (by simp [status, liveStatus])
          (by simp [buildMessage])
      all_goals exact .unchanged other (by simp [buildMessage])

theorem handleRequest_handled (h : handleRequest ws request now = .ok (response, ws')) :
    Handled ws request now response ws' := by
  unfold handleRequest at h
  split at h
  · rename_i type
    cases h
    exact .unchanged (grantedRegistration_of_ne (by simp [type])) (by simp [handlePing, buildMessage])
  · rename_i type
    exact handleRegister_handled type (Except.ok.inj h)
  · rename_i type
    exact handleHeartbeat_handled type h
  · rename_i type
    exact handleShutdown_handled type h
  · rename_i notRegister _ _
    cases h
    exact .unchanged (grantedRegistration_of_ne notRegister) (by simp [buildError, buildMessage])

/-- What a request does to the status of one worker. -/
theorem Handled.statusOf (handled : Handled ws request now response ws') (w : WorkerId) :
    ws'.statusOf w = ws.statusOf w ∨
    (grantedRegistration ws request now = some (w, ws') ∧ ws'.statusOf w = some .idle) ∨
    (∃ status, ws.statusOf w = some status ∧ liveStatus status = true ∧ ws'.statusOf w = some .draining) := by
  cases handled with
  | @registered v ws' granted _ =>
    obtain ⟨worker, _, _, rfl, idle, _⟩ := grantedRegistration_some granted
    by_cases same : w = v
    · subst same
      exact .inr (.inl ⟨granted, by simp [WorkerManager.statusOf, idle]⟩)
    · exact .inl (by simp [WorkerManager.statusOf, Dict.get?_insert, same])
  | unchanged _ _ => exact .inl rfl
  | beat _ _ _ _ => exact .inl (WorkerManager.statusOf_beat ..)
  | @drained v worker _ _ found live _ =>
    rw [WorkerManager.statusOf_setStatus]
    by_cases same : w = v
    · subst same
      have status : ws.statusOf w = some worker.status := by simp [WorkerManager.statusOf, found]
      exact .inr (.inr ⟨worker.status, status, live, by simp [status]⟩)
    · exact .inl (if_neg same)

end DistributedCompute
