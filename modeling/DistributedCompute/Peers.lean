import DistributedCompute.Cluster

/-! One worker of the cluster. What it writes is a request of its own, under a fresh
request_id, or the result of a TASK it has executed; the TASKs it has begun and those
still under way to it form one stream, in the order in which they were written. -/
namespace DistributedCompute
open Py Relation Transition
variable {depth : Nat} {document : Json} {rt : Runtime} {task : TaskMessage} {reply : Message}

variable {floatRepr : BitVec 64 → String}

/-! ### Documents -/

theorem decode_of_encode {m : Message} (formed : m.Formed)
    (encoded : encodeDocument floatRepr depth m = .ok document) :
    decodeMessage document = .ok (m.overWire floatRepr) := by
  obtain ⟨rfl, accepted⟩ := document_of_encode floatRepr encoded
  exact decode_document floatRepr formed accepted

theorem newRequestId_ne (uuid : String) : newRequestId uuid ≠ "" := by
  intro empty
  have texts := congrArg String.toList empty
  simp [newRequestId] at texts

/-- No request_id of a worker's own is that of a TASK. -/
theorem newRequestId_ne_attempt (uuid : String) (t : TaskId) (attempt : Nat) :
    newRequestId uuid ≠ attemptRequestId t attempt := by
  intro same
  have texts := congrArg String.toList same
  simp [newRequestId, attemptRequestId, toString] at texts

theorem attemptRequestId_ne (t : TaskId) (attempt : Nat) : attemptRequestId t attempt ≠ "" := by
  intro empty
  have texts := congrArg String.toList empty
  simp [attemptRequestId] at texts

/-! ### What a worker reads from a TASK -/

/-- The TASK for an attempt at a task, as a worker reads it. -/
def TaskMessage.ofTask (floatRepr : BitVec 64 → String) (t : TaskId) (task : Task) (attempt : Nat) : TaskMessage :=
  ⟨attemptRequestId t attempt, t, task.taskType, wireEntries floatRepr task.payload, attempt⟩

/-- The TASK that a document is, if it is one. -/
def taskOf (document : Json) : Option TaskMessage :=
  match decodeMessage document with
  | .ok message => if message.type = .task then message.task? else none
  | .error _ => none

theorem taskRequest_formed (t : TaskId) (task : Task) : (Master.taskRequest t task).Formed :=
  ⟨rfl, (by decide : "TASK" ≠ ""), attemptRequestId_ne t task.attempt,
    by simp [Master.taskRequest, buildMessage]⟩

theorem loads_dict_document (entries : List (Key × Val)) :
    ((Val.dict entries).document floatRepr).loads = .dict (wireEntries floatRepr entries) := by
  simp [Val.document, Json.loads, wireEntries, Function.comp_def]

theorem task?_taskRequest (t : TaskId) (task : Task) :
    ((Master.taskRequest t task).overWire floatRepr).task? = some (.ofTask floatRepr t task task.attempt) := by
  have text (s : String) : ((Val.str s).document floatRepr).loads = .str s := by simp [Val.document, Json.loads]
  have number (n : Int) : ((Val.int n).document floatRepr).loads = .int n := by simp [Val.document, Json.loads]
  simp [Message.task?, Message.get?, field, Message.overWire, Master.taskRequest, buildMessage,
    loads_dict_document, TaskMessage.ofTask, text, number]

theorem taskOf_taskRequest {t : TaskId} {task : Task}
    (encoded : encodeDocument floatRepr depth (Master.taskRequest t task) = .ok document) :
    taskOf document = some (.ofTask floatRepr t task task.attempt) := by
  rw [taskOf, decode_of_encode (taskRequest_formed t task) encoded]
  exact (if_pos rfl).trans (task?_taskRequest t task)

theorem taskOf_of_other {message : Message} (decoded : decodeMessage document = .ok message)
    (other : message.type ≠ .task) : taskOf document = none := by
  rw [taskOf, decoded]
  exact if_neg other

/-! ### What a worker says -/

theorem serveTask_reply (served : rt.serveTask task = some reply) :
    ∃ fields, rt.executeTask task.taskType task.taskPayload = .ok fields ∧ reply = task.reply fields := by
  unfold Runtime.serveTask at served
  split at served
  · cases served
  · rename_i fields returned
    refine ⟨fields, returned, ?_⟩
    split at served
    · cases served
    · cases accepted : encodeMessage rt.jsonDepth (task.reply fields) with
      | error fault => simp [accepted, Except.toOption] at served
      | ok encoded =>
        obtain rfl := eq_of_encodeMessage accepted
        rw [accepted] at served
        exact (Option.some.inj served).symm

theorem reply_formed (served : rt.serveTask task = some reply) (identified : task.requestId ≠ "") : reply.Formed := by
  obtain ⟨fields, returned, rfl⟩ := serveTask_reply served
  refine ⟨rfl, (by decide : "TASK_RESULT" ≠ ""), identified, ?_⟩
  cases Runtime.reports_of_executeTask returned <;> simp [TaskMessage.reply, buildMessage]

namespace Peer

/-- A message is a request of the worker, or the result of a TASK it has executed. -/
def Says (floatRepr : BitVec 64 → String) (p : Peer) (message : Message) : Prop :=
  (∃ uuid, message.requestId = newRequestId uuid) ∨
    ∃ task ∈ p.served, ∃ reply, p.runtime.serveTask task = some reply ∧ message = reply.overWire floatRepr

structure Honest (floatRepr : BitVec 64 → String) (p : Peer) : Prop where
  outbox : ∀ document ∈ p.outbox, ∃ message, decodeMessage document = .ok message ∧ p.Says floatRepr message
  executing : ∀ task, p.phase = .executing task → task.requestId ≠ ""

theorem honest_fresh (runtime : Runtime) (workerId : WorkerId) (host : String) (port : Int) :
    (fresh runtime workerId host port).Honest floatRepr :=
  ⟨fun _ member => (nomatch member), fun _ executing => (nomatch executing)⟩

variable {p p' : Peer}

/-- Reading and hearing change nothing a worker has said. -/
theorem Honest.congr (honest : p.Honest floatRepr) (outbox : ∀ document ∈ p'.outbox, document ∈ p.outbox)
    (runtime : p'.runtime = p.runtime) (served : p'.served = p.served)
    (executing : ∀ task, p'.phase = .executing task → task.requestId ≠ "") : p'.Honest floatRepr := by
  refine ⟨fun document member => ?_, executing⟩
  obtain ⟨message, decoded, said⟩ := honest.outbox document (outbox document member)
  refine ⟨message, decoded, ?_⟩
  rcases said with request | ⟨task, done, reply, computed, same⟩
  · exact .inl request
  · exact .inr ⟨task, served ▸ done, reply, runtime ▸ computed, same⟩

variable {message : Message} {uuid : String}

/-- What a worker sends is kept, in a phase that awaits no result. -/
theorem Honest.send {next : PeerPhase} (honest : p.Honest floatRepr) (formed : message.Formed)
    (said : p.Says floatRepr (message.overWire floatRepr))
    (executing : ∀ task, next = .executing task → task.requestId ≠ "") :
    (p.send floatRepr message next).Honest floatRepr := by
  unfold Peer.send
  split
  · rename_i document encoded
    refine ⟨fun other member => ?_, executing⟩
    rcases List.mem_append.mp member with before | added
    · exact honest.outbox other before
    · obtain rfl := List.mem_singleton.mp added
      exact ⟨_, decode_of_encode formed encoded, said⟩
  · exact honest.congr (fun _ member => member) rfl rfl (fun _ executing => nomatch executing)

/-- One more TASK has been executed. -/
theorem Honest.grown (honest : p.Honest floatRepr) (task : TaskMessage) :
    Honest floatRepr { p with served := p.served ++ [task] } := by
  refine ⟨fun document member => ?_, honest.executing⟩
  obtain ⟨message, decoded, said⟩ := honest.outbox document member
  refine ⟨message, decoded, said.imp id ?_⟩
  rintro ⟨other, done, rest⟩
  exact ⟨other, List.mem_append_left _ done, rest⟩

theorem request_formed {type : MsgType} {payload : List (String × Val)}
    (known : MsgType.ofName type.name = type ∧ type.name ≠ "") (fields : (payload.map Prod.fst).Nodup) :
    (buildMessage type (newRequestId uuid) payload).Formed :=
  ⟨known.1, known.2, newRequestId_ne uuid, fields⟩

theorem pingRequest_formed (uuid : String) : (pingRequest uuid).Formed := request_formed (by decide) (by simp)

theorem registerRequest_formed (p : Peer) (uuid : String) : (p.registerRequest uuid).Formed :=
  request_formed (by decide) (by simp)

theorem heartbeatRequest_formed (p : Peer) (uuid : String) : (p.heartbeatRequest uuid).Formed :=
  request_formed (by decide) (by simp)

theorem shutdownRequest_formed (p : Peer) (uuid : String) : (p.shutdownRequest uuid).Formed :=
  request_formed (by decide) (by simp)

theorem task?_requestId {task : TaskMessage} (read : message.task? = some task) :
    task.requestId = message.requestId := by
  unfold Message.task? at read
  split at read <;> cases read <;> rfl

/-! ### What a worker can do -/

inductive Does (floatRepr : BitVec 64 → String) (p : Peer) : Peer → Prop
  | pings (uuid : String) : p.phase = .connected →
      Does floatRepr p (p.send floatRepr (pingRequest uuid) (.pinging (newRequestId uuid)))
  | registers {requestId : String} {document : Json} {rest : List Json} {message : Message} (uuid : String) :
      p.phase = .pinging requestId → p.inbox = document :: rest → decodeMessage document = .ok message →
      Does floatRepr p (Peer.send floatRepr { p with inbox := rest } (p.registerRequest uuid)
        (.registering (newRequestId uuid)))
  | enters {requestId : String} {document : Json} {rest : List Json} {message : Message} :
      p.phase = .registering requestId → p.inbox = document :: rest → decodeMessage document = .ok message →
      Does floatRepr p { p with inbox := rest, phase := .serving }
  | ignores {document : Json} {rest : List Json} {message : Message} : p.phase = .serving →
      p.inbox = document :: rest → decodeMessage document = .ok message → message.type ≠ .task →
      Does floatRepr p { p with inbox := rest }
  | begins {document : Json} {rest : List Json} {task : TaskMessage} : p.phase = .serving →
      p.inbox = document :: rest → taskOf document = some task → task.requestId ≠ "" →
      Does floatRepr p { p with inbox := rest, phase := .executing task }
  | fails {rest : List Json} : rest <:+ p.inbox → Does floatRepr p { p with inbox := rest, phase := .ended }
  | answers {task : TaskMessage} {reply : Message} : p.phase = .executing task →
      p.runtime.serveTask task = some reply →
      Does floatRepr p (Peer.send floatRepr { p with served := p.served ++ [task] } reply .serving)
  | breaks {task : TaskMessage} : p.phase = .executing task → p.runtime.serveTask task = none →
      Does floatRepr p { p with served := p.served ++ [task], phase := .ended }
  | reports {message : Message} {uuid : String} (stopping : Bool) : p.isServing = true → message.Formed →
      message.requestId = newRequestId uuid →
      Does floatRepr p (Peer.send floatRepr { p with stopping } message p.phase)

theorem does_handle {document : Json} {rest : List Json} (uuid : String)
    (awaits : (∃ requestId, p.phase = .pinging requestId) ∨ (∃ requestId, p.phase = .registering requestId) ∨
      p.phase = .serving) (arrived : p.inbox = document :: rest) (decoded : decodeMessage document = .ok message) :
    Does floatRepr p (Peer.handle floatRepr { p with inbox := rest } uuid message) := by
  rcases awaits with ⟨requestId, phase⟩ | ⟨requestId, phase⟩ | phase
  · have handled : Peer.handle floatRepr { p with inbox := rest } uuid message =
        Peer.send floatRepr { p with inbox := rest } (p.registerRequest uuid) (.registering (newRequestId uuid)) := by
      simp only [Peer.handle, phase]
      rfl
    rw [handled]
    exact .registers uuid phase arrived decoded
  · simpa only [Peer.handle, phase] using Does.enters phase arrived decoded
  · simp only [Peer.handle, phase]
    split
    · rename_i other
      simpa only [phase] using Does.ignores phase arrived decoded other
    · rename_i isTask
      split
      · rename_i task read
        have found : taskOf document = some task := by
          rw [taskOf, decoded]
          exact (if_pos (not_not.mp isTask)).trans read
        refine .begins phase arrived found ?_
        rw [task?_requestId read]
        exact requestId_of_decode decoded
      · exact .fails (arrived ▸ List.suffix_cons document rest)

theorem does_read (taken : p.read floatRepr uuid = some p') : Does floatRepr p p' := by
  unfold Peer.read at taken
  split at taken
  case h_4 => cases taken
  all_goals
    rename_i phase arrived
    split at taken <;> cases taken
    · refine does_handle uuid ?_ arrived ‹_›
      simp [phase]
    · exact .fails (arrived ▸ List.suffix_cons _ _)

/-- Every action of a worker is one of these. -/
theorem does_of_act {a : PeerAction} (taken : p.act floatRepr a = some p') : Does floatRepr p p' := by
  cases a with
  | ping uuid =>
    simp only [Peer.act] at taken
    split at taken <;> cases taken
    exact .pings uuid ‹_›
  | read uuid => exact does_read taken
  | execute =>
    simp only [Peer.act] at taken
    split at taken
    · rename_i task busy
      cases taken
      unfold Peer.execute
      split
      · exact .answers busy ‹_›
      · exact .breaks busy ‹_›
    · cases taken
  | heartbeat uuid =>
    simp only [Peer.act] at taken
    split at taken <;> cases taken
    exact .reports p.stopping ‹_› (heartbeatRequest_formed p uuid) rfl
  | shutdown uuid =>
    simp only [Peer.act] at taken
    split at taken <;> cases taken
    rename_i allowed
    exact .reports true (Bool.and_eq_true_iff.mp allowed).1 (shutdownRequest_formed p uuid) rfl
  | stop =>
    cases taken
    exact .fails List.suffix_rfl

theorem inbox_send (p : Peer) (message : Message) (next : PeerPhase) :
    (p.send floatRepr message next).inbox = p.inbox := by
  unfold Peer.send
  split <;> rfl

/-- A worker only takes documents from its inbox. -/
theorem Does.inbox (does : Does floatRepr p p') : ∀ document ∈ p'.inbox, document ∈ p.inbox := by
  intro document member
  cases does with
  | pings | answers | reports =>
    rw [inbox_send] at member
    exact member
  | registers _ _ arrived _ =>
    rw [inbox_send] at member
    exact arrived ▸ List.mem_cons_of_mem _ member
  | enters _ arrived _ | ignores _ arrived _ _ | begins _ arrived _ _ => exact arrived ▸ List.mem_cons_of_mem _ member
  | fails rest => exact rest.subset member
  | breaks => exact member

/-- A worker stays honest. -/
theorem Honest.does (honest : p.Honest floatRepr) (does : Does floatRepr p p') : p'.Honest floatRepr := by
  cases does with
  | pings uuid _ => exact honest.send (pingRequest_formed uuid) (.inl ⟨uuid, rfl⟩) (fun _ same => nomatch same)
  | @registers _ _ rest _ uuid _ _ _ =>
    have popped : Honest floatRepr { p with inbox := rest } :=
      honest.congr (fun _ member => member) rfl rfl honest.executing
    exact popped.send (registerRequest_formed p uuid) (.inl ⟨uuid, rfl⟩) (fun _ same => nomatch same)
  | begins _ _ _ identified =>
    refine honest.congr (fun _ member => member) rfl rfl fun other same => ?_
    cases same
    exact identified
  | ignores => exact honest.congr (fun _ member => member) rfl rfl honest.executing
  | answers busy computed =>
    have formed := reply_formed computed (honest.executing _ busy)
    refine (honest.grown _).send formed (.inr ?_) (fun _ same => nomatch same)
    exact ⟨_, List.mem_append_right _ (List.mem_singleton.mpr rfl), _, computed, rfl⟩
  | breaks => exact (honest.grown _).congr (fun _ member => member) rfl rfl (fun _ same => nomatch same)
  | @reports message uuid stopping _ formed fresh =>
    have same : Honest floatRepr { p with stopping } :=
      honest.congr (fun _ member => member) rfl rfl honest.executing
    exact same.send formed (.inl ⟨uuid, fresh⟩) honest.executing
  | enters | fails => exact honest.congr (fun _ member => member) rfl rfl (fun _ same => nomatch same)

/-! ### The stream of TASKs -/

/-- The TASKs the worker has taken from its connection. -/
def begun (p : Peer) : List TaskMessage :=
  match p.phase with
  | .executing task => p.served ++ [task]
  | _ => p.served

/-- The TASKs under way to the worker. -/
def upcoming (p : Peer) : List TaskMessage := p.inbox.filterMap taskOf

/-- The worker takes the TASKs that were sent in their order; while it runs, none is
skipped, and on a link that is not lost none is missing. -/
structure Stream (p : Peer) (sent : List TaskMessage) (lost : Bool) : Prop where
  begun : p.begun <+: sent
  upcoming : p.phase ≠ .ended → p.begun ++ p.upcoming <+: sent
  whole : lost = false → p.phase ≠ .ended → p.begun ++ p.upcoming = sent

section Stream
variable {sent new : List TaskMessage} {lost : Bool}

theorem served_prefix_begun (p : Peer) : p.served <+: p.begun := by
  unfold begun
  split
  · exact List.prefix_append _ _
  · exact List.prefix_rfl

theorem Stream.ended (stream : p.Stream sent lost) (phase : p'.phase = .ended) (served : p'.served <+: p.begun) :
    p'.Stream sent lost := by
  have same : p'.begun = p'.served := by simp only [Peer.begun, phase]
  exact ⟨same ▸ served.trans stream.begun, fun running => absurd phase running, fun _ running => absurd phase running⟩

/-- The worker moves on, and so do the TASKs it takes. -/
theorem Stream.moves (stream : p.Stream sent lost) (running : p.phase ≠ .ended)
    (same : p'.begun ++ p'.upcoming = p.begun ++ p.upcoming) : p'.Stream sent lost := by
  refine ⟨?_, fun _ => same ▸ stream.upcoming running, fun open_ _ => same ▸ stream.whole open_ running⟩
  exact (List.prefix_append _ _).trans (same ▸ stream.upcoming running)

theorem Stream.send {message : Message} {next : PeerPhase} (stream : p.Stream sent lost) (running : p.phase ≠ .ended)
    (same : Peer.begun { p with phase := next } = p.begun) : (p.send floatRepr message next).Stream sent lost := by
  unfold Peer.send
  split
  · exact stream.moves running (congrArg (· ++ p.upcoming) same)
  · exact stream.ended rfl (served_prefix_begun p)

/-- A worker on its way keeps the stream, if what it reads in answer to PING and
REGISTER is no TASK. -/
theorem Stream.does (stream : p.Stream sent lost) (does : Does floatRepr p p')
    (greets : ∀ document rest, (∃ requestId, p.phase = .pinging requestId ∨ p.phase = .registering requestId) →
      p.inbox = document :: rest → taskOf document = none) : p'.Stream sent lost := by
  cases does with
  | pings uuid phase => exact stream.send (by simp [phase]) (by simp [Peer.begun, phase])
  | @registers requestId document rest message uuid phase arrived decoded =>
    have popped : Stream { p with inbox := rest } sent lost := by
      refine stream.moves (by simp [phase]) ?_
      simp [Peer.begun, Peer.upcoming, phase, arrived, greets document rest ⟨requestId, .inl phase⟩ arrived]
    exact popped.send (by simp [phase]) (by simp [Peer.begun, phase])
  | @enters requestId document rest message phase arrived decoded =>
    refine stream.moves (by simp [phase]) ?_
    simp [Peer.begun, Peer.upcoming, phase, arrived, greets document rest ⟨requestId, .inr phase⟩ arrived]
  | ignores phase arrived decoded other =>
    refine stream.moves (by simp [phase]) ?_
    simp [Peer.begun, Peer.upcoming, phase, arrived, taskOf_of_other decoded other]
  | begins phase arrived found _ =>
    refine stream.moves (by simp [phase]) ?_
    simp [Peer.begun, Peer.upcoming, phase, arrived, found]
  | fails => exact stream.ended rfl (served_prefix_begun p)
  | @answers task reply phase _ =>
    have served : Stream { p with served := p.served ++ [task], phase := .serving } sent lost :=
      stream.moves (by simp [phase]) (by simp [Peer.begun, Peer.upcoming, phase])
    exact served.send (by simp) rfl
  | breaks phase _ => exact stream.ended rfl (by simp [Peer.begun, phase])
  | reports stopping serving _ _ =>
    have running : p.phase ≠ .ended := by
      intro ended
      simp [Peer.isServing, ended] at serving
    have same : Stream { p with stopping } sent lost := stream.moves running rfl
    exact same.send running rfl

/-- New TASKs are sent, and arrive unless the link is lost. -/
theorem Stream.hears {documents : List Json} {lost' : Bool} (stream : p.Stream sent lost)
    (stays : lost' = false → lost = false)
    (arrive : if lost' then documents = [] else documents.filterMap taskOf = new) :
    Stream { p with inbox := p.inbox ++ documents } (sent ++ new) lost' := by
  have more : Peer.begun { p with inbox := p.inbox ++ documents } = p.begun := rfl
  cases lost' with
  | true =>
    obtain rfl : documents = [] := by simpa using arrive
    refine ⟨stream.begun.trans (List.prefix_append _ _), fun running => ?_, fun open_ => by cases open_⟩
    have before := (stream.upcoming running).trans (List.prefix_append sent new)
    simpa [Peer.upcoming, Peer.begun] using before
  | false =>
    have arrived : documents.filterMap taskOf = new := by simpa using arrive
    have whole : p.phase ≠ .ended →
        p.begun ++ Peer.upcoming { p with inbox := p.inbox ++ documents } = sent ++ new := by
      intro running
      rw [Peer.upcoming, List.filterMap_append, arrived, ← List.append_assoc]
      exact congrArg (· ++ new) (stream.whole (stays rfl) running)
    refine ⟨stream.begun.trans (List.prefix_append _ _), fun running => ?_, fun _ running => whole running⟩
    rw [more, whole running]

end Stream
end Peer
end DistributedCompute
