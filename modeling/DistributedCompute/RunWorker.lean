import DistributedCompute.Cleanup
import DistributedCompute.Raising
import DistributedCompute.Values

/-! `run_worker` of `worker/async_worker.py` once its connection is open: what it does
for every combination of ways in which its awaits can end. Reading and printing the
two responses is part of their requests. The heartbeat and the shutdown watcher run
beside it; how they end is computed from what happens to them. -/
namespace DistributedCompute
open Py Cleanup

/-- How an await ends when it does not return. -/
inductive Interrupt
  | raised (exn : Exn)
  | cancelled
  deriving DecidableEq, Repr

/-- Caught by `except Exception`. -/
def Interrupt.isRaised : Interrupt → Bool
  | .raised _ => true
  | .cancelled => false

def Interrupt.isCancelled : Interrupt → Bool
  | .raised _ => false
  | .cancelled => true

/-- Caught by `except (ConnectionError, OSError)`. -/
def isOSError (exn : Exn) : Bool :=
  exn.typeName ∈ ["OSError", "BlockingIOError", "ChildProcessError", "ConnectionError", "BrokenPipeError",
    "ConnectionAbortedError", "ConnectionRefusedError", "ConnectionResetError", "FileExistsError",
    "FileNotFoundError", "InterruptedError", "IsADirectoryError", "NotADirectoryError", "PermissionError",
    "ProcessLookupError", "TimeoutError"]

abbrev Outcome := Except Interrupt Unit

/-! ### The tasks beside the worker -/

/-- One turn of the heartbeat loop: `stop_event` is set while it waits, or the wait is
cancelled, or it times out and a heartbeat is sent. -/
inductive HeartbeatTurn
  | stopped
  | waitCancelled
  | beat (sent : Outcome)

/-- `start_heartbeat_loop`: how it ended, unless it goes on. -/
def startHeartbeatLoop : List HeartbeatTurn → Option Outcome
  | [] => none
  | .stopped :: _ => some (.ok ())
  | .waitCancelled :: _ => some (.error .cancelled)
  | .beat (.ok ()) :: rest => startHeartbeatLoop rest
  | .beat (.error (.raised exn)) :: _ => some (if isOSError exn then .ok () else .error (.raised exn))
  | .beat (.error .cancelled) :: _ => some (.error .cancelled)

/-- What happens to the watcher: its wait for the event is cancelled, or SHUTDOWN is sent. -/
inductive ShutdownWatch
  | waitCancelled
  | woken (sent : Outcome)

/-- `watch_for_shutdown`. -/
def watchForShutdown : ShutdownWatch → Outcome
  | .waitCancelled => .error .cancelled
  | .woken (.error (.raised exn)) => if isOSError exn then .ok () else .error (.raised exn)
  | .woken sent => sent

/-- A send that returns, or fails because the connection is gone. -/
def sentOrLost : Outcome → Bool
  | .ok () => true
  | .error (.raised exn) => isOSError exn
  | .error .cancelled => false

def HeartbeatTurn.undisturbed : HeartbeatTurn → Bool
  | .stopped => true
  | .waitCancelled => false
  | .beat sent => sentOrLost sent

/-- Cancelling the watcher is how the worker ends it. -/
def ShutdownWatch.undisturbed : ShutdownWatch → Bool
  | .waitCancelled => true
  | .woken sent => sentOrLost sent || sent matches .error .cancelled

theorem startHeartbeatLoop_of_undisturbed {beats : List HeartbeatTurn} {ended : Outcome}
    (undisturbed : ∀ turn ∈ beats, turn.undisturbed) (result : startHeartbeatLoop beats = some ended) :
    ended = .ok () := by
  induction beats with
  | nil => cases result
  | cons turn rest ih =>
    have now : turn.undisturbed := undisturbed _ List.mem_cons_self
    cases turn with
    | stopped => exact (Option.some.inj result).symm
    | waitCancelled => cases now
    | beat sent =>
      cases sent with
      | ok => exact ih (fun later member => undisturbed later (List.mem_cons_of_mem _ member)) result
      | error e =>
        cases e with
        | raised exn =>
          have lost : isOSError exn = true := now
          rw [startHeartbeatLoop, if_pos lost] at result
          exact (Option.some.inj result).symm
        | cancelled => cases now

theorem watchForShutdown_of_undisturbed {watch : ShutdownWatch} (undisturbed : watch.undisturbed) (exn : Exn) :
    watchForShutdown watch ≠ .error (.raised exn) := by
  intro raised
  match watch with
  | .waitCancelled => cases raised
  | .woken (.ok ()) => cases raised
  | .woken (.error .cancelled) => cases raised
  | .woken (.error (.raised other)) =>
    have lost : isOSError other = true := by simpa [ShutdownWatch.undisturbed, sentOrLost] using undisturbed
    rw [watchForShutdown, if_pos lost] at raised
    cases raised

/-! ### The worker -/

/-- The outcomes of the awaits of one run. The heartbeat loop ends: the worker waits for it. -/
structure WorkerRun where
  start : Outcome
  ping : Outcome
  register : Outcome
  serveTasks : Outcome
  stop : Outcome
  close : Outcome
  beats : List HeartbeatTurn
  ends : (startHeartbeatLoop beats).isSome = true
  hasShutdownEvent : Bool
  shutdown : ShutdownWatch

inductive WorkerAction
  | start
  | ping
  | register
  | createHeartbeat
  | createWatcher
  | serveTasks
  | setStopHeartbeat
  | joinHeartbeat
  | cancelWatcher
  | joinWatcher
  | stop
  | close
  deriving DecidableEq, Repr

namespace WorkerRun

def heartbeat (run : WorkerRun) : Outcome := (startHeartbeatLoop run.beats).get run.ends

def watcher (run : WorkerRun) : Outcome := watchForShutdown run.shutdown

/-- `try: await backend.start() except Exception: await backend.stop(); raise`. -/
def starting (run : WorkerRun) : Block Interrupt WorkerAction :=
  (Block.step .start run.start).thenReraise Interrupt.isRaised (.step .stop run.stop)

/-- The body of the inner `try`. -/
def serving (run : WorkerRun) : Block Interrupt WorkerAction :=
  (Block.step .ping run.ping).seq <| (Block.step .register run.register).seq <|
    (Block.step .createHeartbeat (.ok ())).seq <|
      (if run.hasShutdownEvent then .step .createWatcher (.ok ()) else .skip : Block _ _).seq <|
        .step .serveTasks run.serveTasks

/-- Its `finally`; a task is there if the body came to create it. -/
def windingUp (run : WorkerRun) (begun : List WorkerAction) : Block Interrupt WorkerAction :=
  (Block.step .setStopHeartbeat (.ok ())).seq <|
    (if .createHeartbeat ∈ begun then .step .joinHeartbeat run.heartbeat else .skip : Block _ _).seq <|
      (if .createWatcher ∈ begun then
          (Block.step .cancelWatcher (.ok ())).seq
            ((Block.step .joinWatcher run.watcher).suppress Interrupt.isCancelled)
        else .skip : Block _ _).seq <|
        .step .stop run.stop

/-- The body of the outer `try`. -/
def connected (run : WorkerRun) : Block Interrupt WorkerAction :=
  run.starting.seq (run.serving.thenFinally (run.windingUp run.serving.log))

def runWorker (run : WorkerRun) : Block Interrupt WorkerAction :=
  run.connected.thenFinally (.step .close run.close)

/-- How the run ends before anything is cleaned up. -/
def endedBy (run : WorkerRun) : Outcome := do
  run.start
  run.ping
  run.register
  run.serveTasks

/-! ### When everything is released -/

/-- The worker came to serve tasks. -/
def Served (run : WorkerRun) : Prop := run.start = .ok () ∧ run.ping = .ok () ∧ run.register = .ok ()

/-- Waiting for the two tasks raises nothing. -/
def Joinable (run : WorkerRun) : Prop :=
  run.heartbeat = .ok () ∧ (run.hasShutdownEvent = true → ∀ exn, run.watcher ≠ .error (.raised exn))

def Releasable (run : WorkerRun) : Prop := run.start ≠ .error .cancelled ∧ (run.Served → run.Joinable)

/-- What `stop()` comes after: no other release, and both tasks ended if they were created. -/
structure BeforeStop (front : List WorkerAction) : Prop where
  notStopped : .stop ∉ front
  notClosed : .close ∉ front
  heartbeat : .createHeartbeat ∈ front → .joinHeartbeat ∈ front
  watcher : .createWatcher ∈ front → .joinWatcher ∈ front

/-- `stop()` is called once, in its place, before the connection is closed, and the run
ends with what closing or stopping raised, or with its own error. -/
structure Released (run : WorkerRun) : Prop where
  once : run.runWorker.log.count .stop = 1
  order : ∃ front, run.runWorker.log = front ++ [.stop, .close] ∧ BeforeStop front
  ended : run.runWorker.ended = (do run.close; run.stop; run.endedBy)

section Parts
variable {run : WorkerRun} {e : Interrupt} {begun : List WorkerAction}

theorem serving_of_ping (failed : run.ping = .error e) : run.serving = ⟨[.ping], .error e⟩ :=
  Block.seq_of_error failed _

theorem serving_of_register (ping : run.ping = .ok ()) (failed : run.register = .error e) :
    run.serving = ⟨[.ping, .register], .error e⟩ := by
  unfold serving
  rw [Block.seq_of_ok ping, Block.seq_of_error failed]
  rfl

/-- What the body does when both requests are answered. -/
def servingLog (run : WorkerRun) : List WorkerAction :=
  [.ping, .register, .createHeartbeat] ++ (if run.hasShutdownEvent then [.createWatcher] else []) ++ [.serveTasks]

theorem serving_of_served (ping : run.ping = .ok ()) (register : run.register = .ok ()) :
    run.serving = ⟨run.servingLog, run.serveTasks⟩ := by
  unfold serving servingLog
  rw [Block.seq_of_ok ping, Block.seq_of_ok register, Block.seq_of_ok rfl]
  cases run.hasShutdownEvent <;> rfl

theorem createHeartbeat_mem_servingLog : .createHeartbeat ∈ run.servingLog := by simp [servingLog]

theorem createWatcher_mem_servingLog : .createWatcher ∈ run.servingLog ↔ run.hasShutdownEvent = true := by
  simp [servingLog]

theorem windingUp_of_nothing (heartbeat : .createHeartbeat ∉ begun) (watcher : .createWatcher ∉ begun) :
    run.windingUp begun = ⟨[.setStopHeartbeat, .stop], run.stop⟩ := by
  unfold windingUp
  rw [if_neg heartbeat, if_neg watcher]
  rfl

theorem windingUp_of_heartbeat (failed : run.heartbeat = .error e) :
    run.windingUp run.servingLog = ⟨[.setStopHeartbeat, .joinHeartbeat], .error e⟩ := by
  unfold windingUp
  rw [if_pos createHeartbeat_mem_servingLog, Block.seq_of_ok rfl, Block.seq_of_error failed]
  rfl

theorem windingUp_of_watcher {exn : Exn} (heartbeat : run.heartbeat = .ok ()) (event : run.hasShutdownEvent = true)
    (failed : run.watcher = .error (.raised exn)) : run.windingUp run.servingLog =
      ⟨[.setStopHeartbeat, .joinHeartbeat, .cancelWatcher, .joinWatcher], .error (.raised exn)⟩ := by
  unfold windingUp
  rw [if_pos createHeartbeat_mem_servingLog, if_pos (createWatcher_mem_servingLog.mpr event), Block.seq_of_ok rfl,
    Block.seq_of_ok heartbeat, failed]
  rfl

theorem windingUp_without_watcher (heartbeat : run.heartbeat = .ok ()) (event : run.hasShutdownEvent = false) :
    run.windingUp run.servingLog = ⟨[.setStopHeartbeat, .joinHeartbeat, .stop], run.stop⟩ := by
  have absent : .createWatcher ∉ run.servingLog := by
    rw [createWatcher_mem_servingLog, event]
    decide
  unfold windingUp
  rw [if_pos createHeartbeat_mem_servingLog, if_neg absent, Block.seq_of_ok rfl, Block.seq_of_ok heartbeat]
  rfl

theorem windingUp_with_watcher (heartbeat : run.heartbeat = .ok ()) (event : run.hasShutdownEvent = true)
    (watcher : ∀ exn, run.watcher ≠ .error (.raised exn)) : run.windingUp run.servingLog =
      ⟨[.setStopHeartbeat, .joinHeartbeat, .cancelWatcher, .joinWatcher, .stop], run.stop⟩ := by
  -- it returned, or its cancellation is caught
  have joined : (Block.step .joinWatcher run.watcher : Block _ WorkerAction).suppress Interrupt.isCancelled =
      ⟨[.joinWatcher], .ok ()⟩ := by
    match ended : run.watcher with
    | .ok () => rfl
    | .error .cancelled => rfl
    | .error (.raised exn) => exact absurd ended (watcher exn)
  unfold windingUp
  rw [if_pos createHeartbeat_mem_servingLog, if_pos (createWatcher_mem_servingLog.mpr event), joined,
    Block.seq_of_ok rfl, Block.seq_of_ok heartbeat]
  rfl

theorem connected_of_cancelled (start : run.start = .error .cancelled) :
    run.connected = ⟨[.start], .error .cancelled⟩ := by
  unfold connected starting
  rw [start]
  rfl

theorem connected_of_raised {exn : Exn} (start : run.start = .error (.raised exn)) :
    run.connected = ⟨[.start, .stop], do run.stop; .error (.raised exn)⟩ := by
  unfold connected starting
  rw [start]
  cases run.stop <;> rfl

theorem connected_of_ok (start : run.start = .ok ()) : run.connected =
    ⟨.start :: (run.serving.log ++ (run.windingUp run.serving.log).log),
      do (run.windingUp run.serving.log).ended; run.serving.ended⟩ := by
  have started : run.starting = ⟨[.start], .ok ()⟩ := by
    unfold starting
    rw [start]
    rfl
  unfold connected
  rw [started, Block.seq_of_ok rfl, Block.log_thenFinally, Block.ended_thenFinally]
  rfl

theorem connected_of_unserved (start : run.start = .ok ()) (serving : run.serving = ⟨begun, .error e⟩)
    (heartbeat : .createHeartbeat ∉ begun) (watcher : .createWatcher ∉ begun) : run.connected =
      ⟨.start :: (begun ++ [.setStopHeartbeat, .stop]), do run.stop; .error e⟩ := by
  rw [connected_of_ok start, serving, windingUp_of_nothing heartbeat watcher]

theorem connected_of_served {cleanup : Block Interrupt WorkerAction} (served : run.Served)
    (windingUp : run.windingUp run.servingLog = cleanup) : run.connected =
      ⟨.start :: (run.servingLog ++ cleanup.log), do cleanup.ended; run.serveTasks⟩ := by
  rw [connected_of_ok served.1, serving_of_served served.2.1 served.2.2, windingUp]

theorem endedBy_of_served (served : run.Served) : run.endedBy = run.serveTasks := by
  obtain ⟨start, ping, register⟩ := served
  simp only [endedBy, start, ping, register]
  rfl

theorem connected_of_joinable (served : run.Served) (joinable : run.Joinable) :
    ∃ front, run.connected = ⟨front ++ [.stop], do run.stop; run.endedBy⟩ ∧ BeforeStop front := by
  obtain ⟨heartbeat, watcher⟩ := joinable
  rw [endedBy_of_served served]
  cases event : run.hasShutdownEvent with
  | false =>
    refine ⟨.start :: (run.servingLog ++ [.setStopHeartbeat, .joinHeartbeat]), ?_, ?_⟩
    · rw [connected_of_served served (windingUp_without_watcher heartbeat event)]
      simp only [List.cons_append, List.append_assoc, List.nil_append]
    · simp only [servingLog, event]
      constructor <;> decide
  | true =>
    refine ⟨.start :: (run.servingLog ++ [.setStopHeartbeat, .joinHeartbeat, .cancelWatcher, .joinWatcher]), ?_, ?_⟩
    · rw [connected_of_served served (windingUp_with_watcher heartbeat event (watcher event))]
      simp only [List.cons_append, List.append_assoc, List.nil_append]
    · simp only [servingLog, event]
      constructor <;> decide

/-- Wherever the run ends, `stop()` follows. -/
theorem connected_of_releasable (releasable : run.Releasable) :
    ∃ front, run.connected = ⟨front ++ [.stop], do run.stop; run.endedBy⟩ ∧ BeforeStop front := by
  obtain ⟨uncancelled, joinable⟩ := releasable
  match start : run.start with
  | .error .cancelled => exact absurd start uncancelled
  | .error (.raised exn) =>
    refine ⟨[.start], ?_, by constructor <;> decide⟩
    rw [connected_of_raised start, endedBy, start]
    rfl
  | .ok () =>
    match ping : run.ping, register : run.register with
    | .error e, _ =>
      refine ⟨[.start, .ping, .setStopHeartbeat], ?_, by constructor <;> decide⟩
      rw [connected_of_unserved start (serving_of_ping ping) (by decide) (by decide), endedBy, start, ping]
      rfl
    | .ok (), .error e =>
      refine ⟨[.start, .ping, .register, .setStopHeartbeat], ?_, by constructor <;> decide⟩
      rw [connected_of_unserved start (serving_of_register ping register) (by decide) (by decide), endedBy, start,
        ping, register]
      rfl
    | .ok (), .ok () =>
      have served : run.Served := ⟨start, ping, register⟩
      exact connected_of_joinable served (joinable served)

/-- A cancelled `start()`, or a task that fails when it is awaited, leaves the backend as it is. -/
theorem connected_of_not_releasable (unreleasable : ¬ run.Releasable) :
    ∃ e, run.connected.ended = .error e ∧ .stop ∉ run.connected.log ∧ .close ∉ run.connected.log := by
  by_cases cancelled : run.start = .error .cancelled
  · rw [connected_of_cancelled cancelled]
    exact ⟨_, rfl, by decide, by decide⟩
  · have notJoined : run.Served ∧ ¬ run.Joinable := by
      simpa [Releasable, cancelled] using unreleasable
    obtain ⟨served, notJoinable⟩ := notJoined
    match heartbeat : run.heartbeat with
    | .error e =>
      rw [connected_of_served served (windingUp_of_heartbeat heartbeat)]
      refine ⟨e, rfl, ?_, ?_⟩ <;> simp [servingLog]
    | .ok () =>
      have raised : run.hasShutdownEvent = true ∧ ∃ exn, run.watcher = .error (.raised exn) := by
        simpa [Joinable, heartbeat] using notJoinable
      obtain ⟨event, exn, failed⟩ := raised
      rw [connected_of_served served (windingUp_of_watcher heartbeat event failed)]
      refine ⟨.raised exn, rfl, ?_, ?_⟩ <;> simp [servingLog]

theorem log_runWorker : run.runWorker.log = run.connected.log ++ [.close] := Block.log_thenFinally _ _

theorem ended_runWorker : run.runWorker.ended = (do run.close; run.connected.ended) := Block.ended_thenFinally _ _

theorem released_of_releasable (releasable : run.Releasable) : run.Released := by
  obtain ⟨front, connected, before⟩ := connected_of_releasable releasable
  have log : run.runWorker.log = front ++ [.stop, .close] := by
    rw [log_runWorker, connected, List.append_assoc]
    rfl
  refine ⟨?_, ⟨front, log, before⟩, ?_⟩
  · rw [log, List.count_append, List.count_eq_zero.mpr before.notStopped]
    decide
  · rw [ended_runWorker, connected]

theorem releasable_of_released (released : run.Released) : run.Releasable := by
  by_contra unreleasable
  obtain ⟨e, _, notStopped, _⟩ := connected_of_not_releasable unreleasable
  have never : .stop ∉ run.runWorker.log := by simp [log_runWorker, notStopped]
  have once := released.once
  rw [List.count_eq_zero.mpr never] at once
  exact absurd once (by decide)

theorem close_notMem_connected : .close ∉ run.connected.log := by
  by_cases releasable : run.Releasable
  · obtain ⟨front, connected, before⟩ := connected_of_releasable releasable
    simp [connected, before.notClosed]
  · obtain ⟨_, _, _, notClosed⟩ := connected_of_not_releasable releasable
    exact notClosed

theorem joinable_of_undisturbed (heartbeat : ∀ turn ∈ run.beats, turn.undisturbed)
    (watcher : run.shutdown.undisturbed) : run.Joinable :=
  ⟨startHeartbeatLoop_of_undisturbed heartbeat (Option.some_get run.ends).symm,
    fun _ => watchForShutdown_of_undisturbed watcher⟩

end Parts

/-- In every run the connection is closed exactly once, the backend is stopped at most
once and nothing that ended the run is swallowed. The backend is released exactly when
`start()` is not cancelled and the tasks beside the worker, if it came to serve, end
without an error when they are awaited: in particular if no message of theirs fails
otherwise than by a lost connection and the heartbeat is not cancelled. -/
theorem runWorker_releases (run : WorkerRun) :
    run.runWorker.log.count .close = 1 ∧ run.runWorker.log.count .stop ≤ 1 ∧
    (run.runWorker.ended = .ok () → run.endedBy = .ok () ∧ run.stop = .ok ()) ∧
    (run.Released ↔ run.Releasable) ∧
    (run.start ≠ .error .cancelled → (∀ turn ∈ run.beats, turn.undisturbed) → run.shutdown.undisturbed →
      run.Released) := by
  have released : run.Released ↔ run.Releasable := ⟨releasable_of_released, released_of_releasable⟩
  refine ⟨?_, ?_, ?_, released, ?_⟩
  · rw [log_runWorker, List.count_append, List.count_eq_zero.mpr close_notMem_connected]
    decide
  · by_cases releasable : run.Releasable
    · exact (released_of_releasable releasable).once.le
    · obtain ⟨_, _, notStopped, _⟩ := connected_of_not_releasable releasable
      rw [log_runWorker, List.count_append, List.count_eq_zero.mpr notStopped]
      decide
  · intro ended
    rw [ended_runWorker, Raising.bind_eq_ok] at ended
    obtain ⟨_, _, returned⟩ := ended
    by_cases releasable : run.Releasable
    · obtain ⟨front, connected, _⟩ := connected_of_releasable releasable
      rw [connected, Raising.bind_eq_ok] at returned
      obtain ⟨_, stopped, own⟩ := returned
      exact ⟨own, stopped⟩
    · obtain ⟨e, failed, _⟩ := connected_of_not_releasable releasable
      rw [failed] at returned
      cases returned
  · intro start heartbeat watcher
    exact released_of_releasable ⟨start, fun _ => joinable_of_undisturbed heartbeat watcher⟩

/-- Cancelled while `backend.start()` runs. -/
def startCancelled : WorkerRun :=
  { start := .error .cancelled, ping := .ok (), register := .ok (), serveTasks := .ok (), stop := .ok ()
    close := .ok (), beats := [.stopped], ends := rfl, hasShutdownEvent := false, shutdown := .waitCancelled }

/-- Cancelled while it waits for a heartbeat that is being sent. -/
def joinCancelled : WorkerRun :=
  { start := .ok (), ping := .ok (), register := .ok (), serveTasks := .ok (), stop := .ok ()
    close := .ok (), beats := [.beat (.error .cancelled)], ends := rfl, hasShutdownEvent := false
    shutdown := .waitCancelled }

theorem cancelledRuns_unstopped :
    startCancelled.runWorker.log = [.start, .close] ∧ startCancelled.runWorker.ended = .error .cancelled ∧
    joinCancelled.runWorker.log =
      [.start, .ping, .register, .createHeartbeat, .serveTasks, .setStopHeartbeat, .joinHeartbeat, .close] ∧
    joinCancelled.runWorker.ended = .error .cancelled :=
  ⟨rfl, rfl, rfl, rfl⟩

end WorkerRun
end DistributedCompute
