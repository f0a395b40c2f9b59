import DistributedCompute.Handshake
import DistributedCompute.ThreadedMaster

/-! One connection between the threaded master and a blocking worker. The master looks at
neither the type nor the request_id of what it reads after a TASK: that it is the answer to
this TASK rests on the worker sending nothing else, and on one TASK being under way at a
time. -/
namespace DistributedCompute
open Py

variable {floatRepr : BitVec 64 → String}

/-! ### The TASK that is sent -/

/-- The TASK for an attempt at a task, as a blocking worker reads it. -/
def TaskMessage.ofDispatch (floatRepr : BitVec 64 → String) (t : TaskId) (task : Task) (attempt : Nat) :
    TaskMessage :=
  ⟨s!"task-{t}", t, task.taskType, wireEntries floatRepr task.payload, attempt⟩

theorem dispatchId_ne (t : TaskId) : s!"task-{t}" ≠ "" := by
  intro empty
  have texts := congrArg String.toList empty
  simp [toString] at texts

theorem dispatchRequest_formed (t : TaskId) (task : Task) (attempt : Nat) :
    (dispatchRequest t task attempt).Formed :=
  ⟨rfl, (by decide : "TASK" ≠ ""), dispatchId_ne t, by simp [dispatchRequest, buildMessage]⟩

theorem task?_dispatchRequest (t : TaskId) (task : Task) (attempt : Nat) :
    ((dispatchRequest t task attempt).overWire floatRepr).task? = some (.ofDispatch floatRepr t task attempt) := by
  have text (s : String) : ((Val.str s).document floatRepr).loads = .str s := by simp [Val.document, Json.loads]
  have number (n : Int) : ((Val.int n).document floatRepr).loads = .int n := by simp [Val.document, Json.loads]
  simp [Message.task?, Message.get?, field, Message.overWire, dispatchRequest, buildMessage, loads_dict_document,
    TaskMessage.ofDispatch, text, number]

theorem taskOf_dispatchRequest {t : TaskId} {task : Task} {attempt depth : Nat}
    (encoded : encodeMessage depth (dispatchRequest t task attempt) = .ok (dispatchRequest t task attempt)) :
    taskOf ((dispatchRequest t task attempt).document floatRepr) = some (.ofDispatch floatRepr t task attempt) := by
  have accepted := (Val.jsonFault_eq_none_iff.mp (encodeMessage_ok_iff.mp encoded)).1
  rw [taskOf, decode_document floatRepr (dispatchRequest_formed t task attempt) accepted]
  exact (if_pos rfl).trans (task?_dispatchRequest t task attempt)

/-! ### What a blocking worker does -/

namespace Peer
variable {p p' : Peer}

inductive Blocking (floatRepr : BitVec 64 → String) (p : Peer) : Peer → Prop
  | ends {rest : List Json} {served : List TaskMessage} : p.served ⊆ served →
      Blocking floatRepr p { p with inbox := rest, served, phase := .ended }
  | pings {uuid : String} {document : Json} : p.phase = .connected →
      encodeDocument floatRepr p.runtime.jsonDepth (pingRequest uuid) = .ok document →
      Blocking floatRepr p { p with outbox := p.outbox ++ [document], phase := .pinging (newRequestId uuid) }
  | registers {requestId uuid : String} {heard document : Json} {rest : List Json} : p.phase = .pinging requestId →
      p.inbox = heard :: rest →
      encodeDocument floatRepr p.runtime.jsonDepth (p.registerRequest uuid) = .ok document →
      Blocking floatRepr p { p with
        inbox := rest, outbox := p.outbox ++ [document], phase := .registering (newRequestId uuid) }
  | enters {requestId : String} {heard : Json} {rest : List Json} : p.phase = .registering requestId →
      p.inbox = heard :: rest → Blocking floatRepr p { p with inbox := rest, phase := .serving }
  | ignores {heard : Json} {rest : List Json} : p.phase = .serving → p.inbox = heard :: rest → taskOf heard = none →
      Blocking floatRepr p { p with inbox := rest }
  | begins {heard : Json} {rest : List Json} {task : TaskMessage} : p.phase = .serving → p.inbox = heard :: rest →
      taskOf heard = some task → Blocking floatRepr p { p with inbox := rest, phase := .executing task }
  | answers {task : TaskMessage} {reply : Message} {document : Json} : p.phase = .executing task →
      p.runtime.serveTask task = some reply → encodeDocument floatRepr p.runtime.jsonDepth reply = .ok document →
      Blocking floatRepr p { p with
        served := p.served ++ [task], outbox := p.outbox ++ [document], phase := .serving }

theorem length_of_read {uuid : String} (taken : p.read floatRepr uuid = some p') :
    p'.inbox.length < p.inbox.length := by
  have handled (q : Peer) (message : Message) : (q.handle floatRepr uuid message).inbox = q.inbox := by
    unfold Peer.handle
    split
    · exact inbox_send ..
    · rfl
    · split
      · rfl
      · split <;> rfl
  unfold Peer.read at taken
  split at taken
  case h_4 => cases taken
  all_goals
    rename_i arrived
    split at taken <;> cases taken
    · rw [handled, arrived]
      exact Nat.lt_succ_self _
    · rw [arrived]
      exact Nat.lt_succ_self _

theorem blocking_of_read {uuid : String} (taken : p.read floatRepr uuid = some p') : Blocking floatRepr p p' := by
  have shorter := length_of_read taken
  cases does_read taken with
  | pings _ _ | answers _ _ | reports _ _ _ _ =>
    rw [inbox_send] at shorter
    exact absurd shorter (Nat.lt_irrefl _)
  | breaks _ _ => exact absurd shorter (Nat.lt_irrefl _)
  | registers uuid phase arrived _ =>
    unfold Peer.send
    split
    · exact .registers phase arrived ‹_›
    · exact .ends (List.Subset.refl _)
  | enters phase arrived _ => exact .enters phase arrived
  | ignores phase arrived decoded other => exact .ignores phase arrived (taskOf_of_other decoded other)
  | begins phase arrived read _ => exact .begins phase arrived read
  | fails _ => exact .ends (List.Subset.refl _)

theorem blocking_of_act {a : PeerAction} (blocks : a.blocking = true) (taken : p.act floatRepr a = some p') :
    Blocking floatRepr p p' := by
  cases a with
  | ping uuid =>
    simp only [Peer.act] at taken
    split at taken <;> cases taken
    unfold Peer.send
    split
    · exact .pings ‹_› ‹_›
    · exact .ends (List.Subset.refl _)
  | read uuid => exact blocking_of_read taken
  | execute =>
    simp only [Peer.act] at taken
    split at taken
    · rename_i task busy
      cases taken
      unfold Peer.execute
      split
      · unfold Peer.send
        split
        · exact .answers busy ‹_› ‹_›
        · exact .ends (List.subset_append_left ..)
      · exact .ends (List.subset_append_left ..)
    · cases taken
  | stop =>
    cases taken
    exact .ends (List.Subset.refl _)
  | heartbeat _ | shutdown _ => cases blocks

/-- Who the worker is, and what it has done. -/
theorem Blocking.identity (blocking : Blocking floatRepr p p') : p'.workerId = p.workerId ∧ p'.runtime = p.runtime ∧
    (∀ uuid, p'.registerRequest uuid = p.registerRequest uuid) ∧ p.served ⊆ p'.served := by
  cases blocking with
  | ends grown => exact ⟨rfl, rfl, fun _ => rfl, grown⟩
  | answers _ _ _ => exact ⟨rfl, rfl, fun _ => rfl, List.subset_append_left ..⟩
  | pings _ _ | registers _ _ _ | enters _ _ | ignores _ _ _ | begins _ _ _ =>
    exact ⟨rfl, rfl, fun _ => rfl, List.Subset.refl _⟩

/-- The worker reads TASKs, or will once it has read the reply to its REGISTER; `rest` is
under way to it. -/
inductive Ready (p : Peer) (rest : List Json) : Prop
  | serving : p.phase = .serving → p.inbox = rest → Ready p rest
  | acknowledged {requestId : String} {heard : Json} : p.phase = .registering requestId → p.inbox = heard :: rest →
      Ready p rest

/-- A worker that waits for nothing goes on waiting or ends. -/
theorem Ready.waits (ready : p.Ready []) (blocking : Blocking floatRepr p p') :
    p'.outbox = p.outbox ∧ (p'.Ready [] ∨ p'.phase = .ended) := by
  cases blocking with
  | ends _ => exact ⟨rfl, .inr rfl⟩
  | pings phase _ | answers phase _ _ => cases ready <;> simp_all
  | registers phase _ _ => cases ready <;> simp_all
  | enters phase arrived =>
    cases ready with
    | serving phase' _ => simp_all
    | acknowledged phase' arrived' =>
      obtain ⟨rfl, rfl⟩ := List.cons.inj (arrived.symm.trans arrived')
      exact ⟨rfl, .inl (.serving rfl rfl)⟩
  | ignores phase arrived _ | begins phase arrived _ => cases ready <;> simp_all

/-- A worker to which a TASK is under way reads what comes before it, begins it or ends. -/
theorem Ready.moves {document : Json} {task : TaskMessage} (ready : p.Ready [document])
    (named : taskOf document = some task) (blocking : Blocking floatRepr p p') :
    p'.outbox = p.outbox ∧
      (p'.Ready [document] ∨ (p'.phase = .executing task ∧ p'.inbox = []) ∨ p'.phase = .ended) := by
  cases blocking with
  | ends _ => exact ⟨rfl, .inr (.inr rfl)⟩
  | pings phase _ | answers phase _ _ => cases ready <;> simp_all
  | registers phase _ _ => cases ready <;> simp_all
  | enters phase arrived =>
    cases ready with
    | serving phase' _ => simp_all
    | acknowledged phase' arrived' =>
      obtain ⟨rfl, rfl⟩ := List.cons.inj (arrived.symm.trans arrived')
      exact ⟨rfl, .inl (.serving rfl rfl)⟩
  | ignores phase arrived other => cases ready <;> simp_all
  | begins phase arrived read =>
    cases ready with
    | serving phase' arrived' =>
      obtain ⟨rfl, rfl⟩ := List.cons.inj (arrived.symm.trans arrived')
      obtain rfl := Option.some.inj (read.symm.trans named)
      exact ⟨rfl, .inr (.inl ⟨rfl, rfl⟩)⟩
    | acknowledged phase' _ => simp_all

theorem Ready.hears (ready : p.Ready []) (document : Json) :
    Ready { p with inbox := p.inbox ++ [document] } [document] := by
  cases ready with
  | serving phase arrived => exact .serving phase (by simp [arrived])
  | acknowledged phase arrived => exact .acknowledged phase (congrArg (· ++ [document]) arrived)

/-- A worker that has ended stays so. -/
theorem Blocking.ended (blocking : Blocking floatRepr p p') (ended : p.phase = .ended) :
    p'.phase = .ended ∧ p'.outbox = p.outbox := by
  cases blocking with
  | ends _ => exact ⟨rfl, rfl⟩
  | pings phase _ | registers phase _ _ | enters phase _ | ignores phase _ _ | begins phase _ _
  | answers phase _ _ => simp_all

end Peer

/-! ### A connection that is in use -/

namespace Session
variable {session : Session} {peer : Peer} {task : TaskMessage}

/-- Nothing more will come from the worker. -/
def Gone (session : Session) : Prop := session.lost = true ∨ session.peer.phase = .ended

/-- Nothing is under way from the worker, and it waits for a TASK unless it is gone. -/
def Quiet (session : Session) : Prop := session.peer.outbox = [] ∧ (session.Gone ∨ session.peer.Ready [])

/-- A TASK has been sent, and its answer has not been read. -/
inductive Asked (floatRepr : BitVec 64 → String) (session : Session) (task : TaskMessage) : Prop
  | gone : session.peer.outbox = [] → session.Gone → Asked floatRepr session task
  | due {document : Json} : session.peer.outbox = [] → taskOf document = some task → session.peer.Ready [document] →
      Asked floatRepr session task
  | executing : session.peer.outbox = [] → session.peer.phase = .executing task → session.peer.inbox = [] →
      Asked floatRepr session task
  | replied {reply : Message} {depth : Nat} {document : Json} : session.peer.outbox = [document] →
      task ∈ session.peer.served → session.peer.runtime.serveTask task = some reply →
      encodeDocument floatRepr depth reply = .ok document → session.Gone ∨ session.peer.Ready [] →
      Asked floatRepr session task

theorem acted_of_lost (lost : session.lost = true) (peer : Peer) :
    session.acted peer = { session with peer := { peer with outbox := session.peer.outbox } } := by
  rw [acted, if_pos lost]

theorem acted_of_not_lost (lost : session.lost = false) (peer : Peer) :
    session.acted peer = { session with peer } := by
  rw [acted, if_neg (by simp [lost])]

/-- A worker that is gone says nothing more. -/
theorem Gone.acted (gone : session.Gone) (blocking : Peer.Blocking floatRepr session.peer peer) :
    (session.acted peer).Gone ∧ (session.acted peer).peer.outbox = session.peer.outbox := by
  cases lost : session.lost with
  | true =>
    rw [acted_of_lost lost]
    exact ⟨.inl lost, rfl⟩
  | false =>
    rw [acted_of_not_lost lost]
    obtain ⟨ended, outbox⟩ := blocking.ended (gone.resolve_left (by simp [lost]))
    exact ⟨.inr ended, outbox⟩

theorem identity_acted (session : Session) (blocking : Peer.Blocking floatRepr session.peer peer) :
    (session.acted peer).peer.workerId = session.peer.workerId ∧
      (session.acted peer).peer.runtime = session.peer.runtime ∧
      (∀ uuid, (session.acted peer).peer.registerRequest uuid = session.peer.registerRequest uuid) ∧
      session.peer.served ⊆ (session.acted peer).peer.served := by
  obtain ⟨workerId, runtime, register, served⟩ := blocking.identity
  unfold acted
  split
  · exact ⟨workerId, runtime, fun uuid => register uuid, served⟩
  · exact ⟨workerId, runtime, fun uuid => register uuid, served⟩

theorem Quiet.acted (quiet : session.Quiet) (blocking : Peer.Blocking floatRepr session.peer peer) :
    (session.acted peer).Quiet := by
  obtain ⟨silent, gone | ready⟩ := quiet
  · obtain ⟨gone, outbox⟩ := gone.acted blocking
    exact ⟨outbox.trans silent, .inl gone⟩
  · cases lost : session.lost with
    | true =>
      rw [acted_of_lost lost]
      exact ⟨silent, .inl (.inl lost)⟩
    | false =>
      rw [acted_of_not_lost lost]
      obtain ⟨outbox, still | ended⟩ := ready.waits blocking
      · exact ⟨outbox.trans silent, .inr still⟩
      · exact ⟨outbox.trans silent, .inl (.inr ended)⟩

theorem Asked.acted (asked : session.Asked floatRepr task) (blocking : Peer.Blocking floatRepr session.peer peer) :
    (session.acted peer).Asked floatRepr task := by
  cases lost : session.lost with
  | true =>
    -- whatever the worker does, its outbox stays as it is
    have gone : (session.acted peer).Gone := ((show session.Gone from .inl lost).acted blocking).1
    have outbox := ((show session.Gone from .inl lost).acted blocking).2
    obtain ⟨_, runtime, _, served⟩ := session.identity_acted blocking
    cases asked with
    | gone silent _ | due silent _ _ | executing silent _ _ => exact .gone (outbox.trans silent) gone
    | replied said done computed encoded _ =>
      exact .replied (outbox.trans said) (served done) (by rw [runtime]; exact computed) encoded (.inl gone)
  | false =>
    cases asked with
    | gone silent gone =>
      obtain ⟨gone, outbox⟩ := gone.acted blocking
      exact .gone (outbox.trans silent) gone
    | due silent named ready =>
      rw [acted_of_not_lost lost]
      obtain ⟨outbox, still | ⟨busy, empty⟩ | ended⟩ := ready.moves named blocking
      · exact .due (outbox.trans silent) named still
      · exact .executing (outbox.trans silent) busy empty
      · exact .gone (outbox.trans silent) (.inr ended)
    | executing silent busy empty =>
      rw [acted_of_not_lost lost]
      cases blocking with
      | ends _ => exact .gone silent (.inr rfl)
      | pings phase _ | registers phase _ _ | enters phase _ | ignores phase _ _ | begins phase _ _ => simp_all
      | @answers other reply document phase computed encoded =>
        obtain rfl : other = task := PeerPhase.executing.inj (phase.symm.trans busy)
        exact .replied (by simp [silent]) (by simp) computed encoded (.inr (.serving rfl empty))
    | @replied reply _ _ said done computed encoded after =>
      obtain ⟨_, runtime, _, served⟩ := session.identity_acted blocking
      have computed' : (session.acted peer).peer.runtime.serveTask task = some reply := by
        rw [runtime]
        exact computed
      rcases after with gone | ready
      · obtain ⟨gone, outbox⟩ := gone.acted blocking
        exact .replied (outbox.trans said) (served done) computed' encoded (.inl gone)
      · obtain ⟨outbox, next⟩ := ready.waits blocking
        have after : (session.acted peer).Gone ∨ (session.acted peer).peer.Ready [] := by
          rw [acted_of_not_lost lost]
          exact next.symm.imp_left .inr
        refine .replied ?_ (served done) computed' encoded after
        rw [acted_of_not_lost lost]
        exact outbox.trans said

theorem Quiet.cut (quiet : session.Quiet) (arrived : Nat) : (session.cut arrived).Quiet :=
  ⟨by simp [Session.cut, quiet.1], .inl (.inl rfl)⟩

theorem Asked.cut (asked : session.Asked floatRepr task) (arrived : Nat) :
    (session.cut arrived).Asked floatRepr task := by
  have gone : (session.cut arrived).Gone := .inl rfl
  cases asked with
  | gone silent _ | due silent _ _ | executing silent _ _ => exact .gone (by simp [Session.cut, silent]) gone
  | replied said done computed encoded _ =>
    cases arrived with
    | zero => exact .gone rfl gone
    | succ n => exact .replied (by simp [Session.cut, said]) done computed encoded (.inl gone)

/-- A TASK is written on a quiet connection. -/
theorem Quiet.hears {document : Json} (quiet : session.Quiet) (named : taskOf document = some task) :
    (session.hears [document]).Asked floatRepr task := by
  obtain ⟨silent, gone | ready⟩ := quiet
  · unfold Session.hears
    split
    · exact .gone silent gone
    · exact .gone silent gone
  · unfold Session.hears
    split
    · exact .gone silent (.inl ‹_›)
    · exact .due silent named (ready.hears document)

/-- What is read after a TASK is the answer to it, and the connection is quiet again. -/
theorem Asked.popped {document : Json} {rest : List Json} (asked : session.Asked floatRepr task)
    (identified : task.requestId ≠ "") (said : session.peer.outbox = document :: rest) :
    (session.popped rest).Quiet ∧ task ∈ session.peer.served ∧ ∃ reply,
      session.peer.runtime.serveTask task = some reply ∧ document = reply.document floatRepr ∧
      decodeMessage document = .ok (reply.overWire floatRepr) := by
  cases asked with
  | gone silent _ | due silent _ _ | executing silent _ _ =>
    rw [silent] at said
    cases said
  | @replied reply depth document' said' done computed encoded after =>
    obtain ⟨rfl, rfl⟩ := List.cons.inj (said.symm.trans said')
    refine ⟨⟨rfl, after.imp id fun ready => ?_⟩, done, reply, computed, (document_of_encode floatRepr encoded).1,
      decode_of_encode (reply_formed computed identified) encoded⟩
    cases ready with
    | serving phase empty => exact .serving phase empty
    | acknowledged phase arrived => exact .acknowledged phase arrived

end Session

/-! ### The greeting -/

namespace Session
variable {session : Session} {peer : Peer}

/-- A connection on which `accept_and_register` waits for the worker to register. -/
inductive Greets (session : Session) : Prop
  | quiet : session.Quiet → Greets session
  | gone {uuid : String} {document : Json} {request : Message} : session.Gone → session.peer.outbox = [document] →
      decodeMessage document = .ok request →
      request = Peer.pingRequest uuid ∨ request = session.peer.registerRequest uuid → Greets session
  | connected : session.peer.phase = .connected → session.peer.inbox = [] → session.peer.outbox = [] → Greets session
  | pinging {uuid requestId : String} {document : Json} : session.peer.phase = .pinging requestId →
      session.peer.inbox = [] → session.peer.outbox = [document] →
      decodeMessage document = .ok (Peer.pingRequest uuid) → Greets session
  | ponged {requestId : String} {heard : Json} : session.peer.phase = .pinging requestId →
      session.peer.inbox = [heard] → session.peer.outbox = [] → Greets session
  | registering {uuid requestId : String} {document : Json} : session.peer.phase = .registering requestId →
      session.peer.inbox = [] → session.peer.outbox = [document] →
      decodeMessage document = .ok (session.peer.registerRequest uuid) → Greets session

/-- What the master may read before the worker is registered. -/
theorem Greets.said (greets : session.Greets) {document : Json} {rest : List Json}
    (said : session.peer.outbox = document :: rest) : rest = [] ∧ ∃ uuid request,
      decodeMessage document = .ok request ∧
        (request = Peer.pingRequest uuid ∨ request = session.peer.registerRequest uuid) := by
  cases greets with
  | quiet quiet =>
    rw [quiet.1] at said
    cases said
  | connected _ _ outbox | ponged _ _ outbox =>
    rw [outbox] at said
    cases said
  | gone _ outbox decoded request =>
    obtain ⟨rfl, rfl⟩ := List.cons.inj (said.symm.trans outbox)
    exact ⟨rfl, _, _, decoded, request⟩
  | pinging _ _ outbox decoded =>
    obtain ⟨rfl, rfl⟩ := List.cons.inj (said.symm.trans outbox)
    exact ⟨rfl, _, _, decoded, .inl rfl⟩
  | registering _ _ outbox decoded =>
    obtain ⟨rfl, rfl⟩ := List.cons.inj (said.symm.trans outbox)
    exact ⟨rfl, _, _, decoded, .inr rfl⟩

/-- A connection that is lost, or whose worker has ended. -/
theorem greets_of_gone (greets : session.Greets) {session' : Session} (gone : session'.Gone)
    (outbox : session'.peer.outbox = [] ∨ session'.peer.outbox = session.peer.outbox)
    (register : ∀ uuid, session'.peer.registerRequest uuid = session.peer.registerRequest uuid) :
    session'.Greets := by
  rcases outbox with silent | same
  · exact .quiet ⟨silent, .inl gone⟩
  · cases said : session.peer.outbox with
    | nil => exact .quiet ⟨same.trans said, .inl gone⟩
    | cons document rest =>
      obtain ⟨rfl, uuid, request, decoded, named⟩ := greets.said said
      refine .gone gone (same.trans said) decoded (named.imp_right fun registers => ?_)
      rw [registers, register]

theorem Greets.acted (greets : session.Greets) (blocking : Peer.Blocking floatRepr session.peer peer) :
    (session.acted peer).Greets := by
  obtain ⟨_, _, register, _⟩ := session.identity_acted blocking
  cases lost : session.lost with
  | true =>
    obtain ⟨gone, outbox⟩ := (show session.Gone from .inl lost).acted blocking
    exact greets_of_gone greets gone (.inr outbox) register
  | false =>
    have ended (phase : peer.phase = .ended) (outbox : peer.outbox = session.peer.outbox) :
        (session.acted peer).Greets := by
      refine greets_of_gone greets ?_ (.inr ?_) register <;> rw [acted_of_not_lost lost]
      · exact .inr phase
      · exact outbox
    cases greets with
    | quiet quiet => exact .quiet (quiet.acted blocking)
    | gone gone _ _ _ =>
      obtain ⟨gone, outbox⟩ := gone.acted blocking
      exact greets_of_gone (.gone ‹_› ‹_› ‹_› ‹_›) gone (.inr outbox) register
    | connected phase inbox outbox =>
      cases blocking with
      | ends _ => exact ended rfl rfl
      | pings _ encoded =>
        rw [acted_of_not_lost lost]
        exact .pinging rfl inbox (by simp [outbox]) (decode_of_encode (Peer.pingRequest_formed _) encoded)
      | registers other _ _ | enters other _ | ignores other _ _ | begins other _ _
      | answers other _ _ => simp_all
    | pinging phase inbox outbox decoded =>
      cases blocking with
      | ends _ => exact ended rfl rfl
      | pings other _ | registers other _ _ | enters other _ | ignores other _ _ | begins other _ _
      | answers other _ _ => simp_all
    | ponged phase inbox outbox =>
      cases blocking with
      | ends _ => exact ended rfl rfl
      | registers _ arrived encoded =>
        obtain ⟨rfl, rfl⟩ := List.cons.inj (arrived.symm.trans inbox)
        have decoded := decode_of_encode (Peer.registerRequest_formed ..) encoded
        rw [Cluster.overWire_registerRequest] at decoded
        rw [acted_of_not_lost lost]
        exact .registering rfl rfl (by simp [outbox]) decoded
      | pings other _ | enters other _ | ignores other _ _ | begins other _ _ | answers other _ _ => simp_all
    | registering phase inbox outbox decoded =>
      cases blocking with
      | ends _ => exact ended rfl rfl
      | pings other _ | registers other _ _ | enters other _ | ignores other _ _ | begins other _ _
      | answers other _ _ => simp_all

theorem Greets.cut (greets : session.Greets) (arrived : Nat) : (session.cut arrived).Greets := by
  refine greets_of_gone greets (.inl rfl) ?_ fun _ => rfl
  cases said : session.peer.outbox with
  | nil => exact .inl (by simp [Session.cut, said])
  | cons document rest =>
    obtain ⟨rfl, _⟩ := greets.said said
    cases arrived with
    | zero => exact .inl rfl
    | succ n => exact .inr (by simp [Session.cut, said])

/-- The master reads a request and its reply arrives; after a REGISTER nothing is under way
but that reply. -/
theorem Greets.answered (greets : session.Greets) {document reply : Json} {rest : List Json} {request : Message}
    (said : session.peer.outbox = document :: rest) (decoded : decodeMessage document = .ok request) :
    ((session.popped rest).hears [reply]).Greets ∧
      (request.type = .register → ((session.popped rest).hears [reply]).Quiet) := by
  obtain ⟨rfl, _⟩ := greets.said said
  have quiet (quiet : ((session.popped []).hears [reply]).Quiet) :
      ((session.popped []).hears [reply]).Greets ∧
        (request.type = .register → ((session.popped []).hears [reply]).Quiet) := ⟨.quiet quiet, fun _ => quiet⟩
  cases lost : session.lost with
  | true =>
    have same : (session.popped []).hears [reply] = session.popped [] := if_pos lost
    rw [same] at quiet ⊢
    exact quiet ⟨rfl, .inl (.inl lost)⟩
  | false =>
    have after : (session.popped []).hears [reply] = { session with
        peer := { session.peer with inbox := session.peer.inbox ++ [reply], outbox := [] } } :=
      if_neg (by simp [popped, lost])
    rw [after] at quiet ⊢
    cases greets with
    | quiet silent => cases silent.1.symm.trans said
    | connected _ _ silent | ponged _ _ silent => cases silent.symm.trans said
    | gone gone _ _ _ => exact quiet ⟨rfl, .inl gone⟩
    | pinging phase inbox outbox ping =>
      obtain ⟨rfl, _⟩ := List.cons.inj (said.symm.trans outbox)
      cases decoded.symm.trans ping
      exact ⟨.ponged phase (congrArg (· ++ [reply]) inbox) rfl, fun register => MsgType.noConfusion register⟩
    | registering phase inbox _ _ => exact quiet ⟨rfl, .inr (.acknowledged phase (congrArg (· ++ [reply]) inbox))⟩

end Session
end DistributedCompute
