import DistributedCompute.Peers

/-! The connection between the master and one worker, from PING on. The first document
that reaches a worker is the PONG to its PING and the second the reply to its REGISTER,
for the master writes a TASK only on a link that is in the table, where a link gets
after its REGISTER_ACK was written. From then on the TASKs on the connection are those
that the history notes for it. -/
namespace DistributedCompute
open Py Relation Transition

variable {floatRepr : BitVec 64 → String}

/-! ### Links that speak for no worker -/

/-- The link is not in the table, nor about to be. -/
def Link.Unknown (link : Link) : Prop := link.workerId = none ∧ link.pc.registering = none

namespace Master
section Links
variable {m m' : Master} {a : Action} {l : LinkId} {link : Link}

theorem step_keeps_lost (taken : m.step a = some m') (there : m.links[l]? = some link) :
    ∃ link', m'.links[l]? = some link' ∧ (link.lost = true → link'.lost = true) := by
  obtain ⟨link', there', change⟩ := step_relink taken there
  refine ⟨link', there', fun gone => ?_⟩
  cases change with
  | lost | ended | replaced | closed => rfl
  | same | replying | installed | handler | written | unsent | popped => exact gone

/-- Only a REGISTER that is granted makes a link known, and it is being answered then. -/
theorem step_unknown (taken : m.step a = some m') (there : m.links[l]? = some link) (unknown : link.Unknown)
    {link' : Link} (there' : m'.links[l]? = some link') : link'.Unknown ∨
      ∃ message response now w ws, a = .receive l message now ∧ link'.pc = .replying message response ∧
        grantedRegistration m.workers message now = some (w, ws) := by
  obtain ⟨same, found, change⟩ := step_relink taken there
  obtain rfl := Option.some.inj (there'.symm.trans found)
  cases change with
  | same | lost | replaced | written | unsent | popped | closed => exact .inl unknown
  | ended => exact .inl ⟨unknown.1, rfl⟩
  | @replying message response now ws received _ handled =>
    rcases claims : (HandlerPc.replying message response).registering with _ | w
    · exact .inl ⟨unknown.1, claims⟩
    · exact .inr ⟨message, response, now, w, ws, received, rfl, registering_replying handled claims⟩
  | installed _ _ claims _ => exact absurd (unknown.2.symm.trans claims) (by simp)
  | handler _ _ quiet _ => exact .inl ⟨unknown.1, quiet_registering quiet⟩

/-- A link in the table is known. -/
theorem known_of_seat (recorded : Succession.Recorded m.seats) {w : WorkerId} (seat : m.connections.get? w = some l)
    (there : m.links[l]? = some link) : ¬link.Unknown := by
  rintro ⟨unnamed, _⟩
  have named := recorded.seated w l seat
  simp [Master.seats, face_of_there there, Link.face, unnamed] at named

end Links

/-! ### The TASKs of a link -/

/-- The TASKs written on link `l`, as a worker reads them. -/
def sentTasks (floatRepr : BitVec 64 → String) (m : Master) (l : LinkId) : List TaskMessage :=
  (m.sentOn l).filterMap (fun e => (m.tasks.get? e.1).map (fun task => TaskMessage.ofTask floatRepr e.1 task e.2))

section Sent
variable {m m' : Master} {a : Action} {l : LinkId} {t : TaskId} {attempt : Nat}

theorem mem_sentOn : (t, attempt) ∈ m.sentOn l ↔ Event.sent t attempt l ∈ m.history := by
  simp only [sentOn, List.mem_filterMap]
  constructor
  · rintro ⟨event, member, found⟩
    cases event with
    | registered | recorded => cases found
    | sent u number k =>
      simp only [Event.sentOn] at found
      split at found <;> cases found
      rename_i same
      exact same ▸ member
  · exact fun member => ⟨_, member, if_pos rfl⟩

theorem attempt_of_sent (sent : (t, attempt) ∈ m.sentOn l) : attempt ∈ m.sentAttempts t :=
  List.mem_filterMap.mpr ⟨_, mem_sentOn.mp sent, if_pos rfl⟩

theorem task_of_sent (fenced : m.Fenced) (sent : (t, attempt) ∈ m.sentOn l) : ∃ task, m.tasks.get? t = some task := by
  obtain ⟨low, high, _⟩ := (fenced.leases t).sent attempt (attempt_of_sent sent)
  rcases found : m.tasks.get? t with _ | task
  · simp [lease, found] at high
    omega
  · exact ⟨task, rfl⟩

/-- What was sent before reads as it did. -/
theorem sentTasks_grow {new : List (TaskId × Nat)} (fenced : m.Fenced) (keeps : m.KeepsWork m')
    (sent : m'.sentOn l = m.sentOn l ++ new) : m'.sentTasks floatRepr l = m.sentTasks floatRepr l ++
      new.filterMap (fun e => (m'.tasks.get? e.1).map (fun task => TaskMessage.ofTask floatRepr e.1 task e.2)) := by
  rw [sentTasks, sent, List.filterMap_append]
  refine congrArg (· ++ _) (List.filterMap_congr fun e member => ?_)
  obtain ⟨task, found⟩ := task_of_sent fenced member
  obtain ⟨task', found', type, payload⟩ := keeps e.1 task found
  simp [found, found', TaskMessage.ofTask, type, payload]

theorem mem_sentTasks {task : TaskMessage} : task ∈ m.sentTasks floatRepr l ↔
    ∃ t attempt record, Event.sent t attempt l ∈ m.history ∧ m.tasks.get? t = some record ∧
      task = .ofTask floatRepr t record attempt := by
  simp only [sentTasks, List.mem_filterMap, Option.map_eq_some_iff]
  constructor
  · rintro ⟨⟨t, attempt⟩, sent, record, found, rfl⟩
    exact ⟨t, attempt, record, mem_sentOn.mp sent, found, rfl⟩
  · rintro ⟨t, attempt, record, sent, found, rfl⟩
    exact ⟨(t, attempt), mem_sentOn.mpr sent, record, found, rfl⟩

end Sent
end Master

/-! ### What arrives at the other end -/

variable {ws ws' : WorkerManager} {request response : Message} {now : Time}

theorem handleRequest_type (handled : handleRequest ws request now = .ok (response, ws')) :
    response.type ≠ .task := by
  unfold handleRequest at handled
  split at handled
  · cases handled
    exact fun same => by cases same
  · have answered := Except.ok.inj handled
    unfold handleRegister at answered
    split at answered <;> cases answered <;> exact fun same => by cases same
  · unfold handleHeartbeat at handled
    split at handled
    · cases handled
    · cases handled
      exact fun same => by cases same
    · split at handled <;> cases handled <;> exact fun same => by cases same
  · unfold handleShutdown at handled
    split at handled
    · cases handled
    · cases handled
      exact fun same => by cases same
    · split at handled <;> cases handled <;> exact fun same => by cases same
  · cases handled
    exact fun same => by cases same

/-- The reply of `handle_request` is decoded as it was. -/
theorem reply_carried (floatRepr : BitVec 64 → String) (handled : handleRequest ws request now = .ok (response, ws'))
    (identified : request.requestId ≠ "") :
    response.requestId = request.requestId ∧ decodeMessage (response.document floatRepr) = .ok response := by
  obtain ⟨other, left, same, replies⟩ := handleRequest_replies ws now (handleable_of_ok handled)
  cases handled.symm.trans same
  exact ⟨replies.requestId, (replies.carried identified floatRepr).1⟩

namespace Cluster
section Arriving
variable {m m' : Master} {a : Action} {l : LinkId} {link link' : Link}
variable {message : Message}

theorem arriving_none (m : Master) (l : LinkId) : arriving floatRepr m none l = [] := rfl

theorem arriving_lost (there : m.links[l]? = some link) (lost : link.lost = true)
    (written : Option (LinkId × Message)) : arriving floatRepr m written l = [] := by
  unfold arriving
  split
  · rfl
  · simp [there, lost]

theorem arriving_elsewhere {k : LinkId} (other : k ≠ l) :
    arriving floatRepr m (some (k, message)) l = [] := if_neg (fun both => other both.1)

theorem arriving_here (there : m.links[l]? = some link) (open_ : link.lost = false) :
    arriving floatRepr m (some (l, message)) l = [message.document floatRepr] := by
  simp [arriving, there, open_]

/-- What arrives at the other end of a link is what the history notes, where TASKs are
concerned. -/
theorem arriving_tasks (fenced : m.Fenced) (taken : m.step a = some m') (there' : m'.links[l]? = some link')
    (identified : ∀ l message now, a = .receive l message now → message.requestId ≠ "") :
    ∃ new, m'.sentTasks floatRepr l = m.sentTasks floatRepr l ++ new ∧
      if link'.lost then arriving floatRepr m' (m'.written a) l = []
      else (arriving floatRepr m' (m'.written a) l).filterMap taskOf = new := by
  have keeps := Master.step_keepsWork taken
  have unsent : m.Unsent m' → m'.sentTasks floatRepr l = m.sentTasks floatRepr l ++ [] := fun unsent =>
    Master.sentTasks_grow fenced keeps ((unsent.sentOn l).trans (List.append_nil _).symm)
  -- on a lost link nothing arrives, whatever is written
  have finish : ∀ {new}, m'.sentTasks floatRepr l = m.sentTasks floatRepr l ++ new →
      (link'.lost = false → (arriving floatRepr m' (m'.written a) l).filterMap taskOf = new) →
      ∃ new, m'.sentTasks floatRepr l = m.sentTasks floatRepr l ++ new ∧
        if link'.lost then arriving floatRepr m' (m'.written a) l = []
        else (arriving floatRepr m' (m'.written a) l).filterMap taskOf = new := by
    intro new grown arrive
    refine ⟨new, grown, ?_⟩
    split
    · exact arriving_lost there' ‹_› _
    · exact arrive (Bool.eq_false_iff.mpr ‹_›)
  cases Master.step_writes taken with
  | nothing silent quiet =>
    refine finish (unsent quiet) fun _ => ?_
    rw [silent, arriving_none, List.filterMap_nil]
  | @reply k _ message response now ws received _ _ _ handled after written quiet =>
    refine finish (unsent quiet) fun open_ => ?_
    rw [written]
    by_cases same : k = l
    · obtain ⟨_, decoded⟩ := reply_carried floatRepr handled (identified k message now received)
      rw [same, arriving_here there' open_]
      simp [taskOf_of_other decoded (handleRequest_type handled)]
    · rw [arriving_elsewhere same, List.filterMap_nil]
  | @task d t task w k depth _ found _ accepted after written =>
    have sentOn : m'.sentOn l = m.sentOn l ++ if k = l then [(t, task.attempt)] else [] := by
      have history : m'.history = m.history ++ [Event.sent t task.attempt k] := by rw [after]; rfl
      simp only [Master.sentOn, history, List.filterMap_append, List.filterMap_cons, List.filterMap_nil,
        Event.sentOn]
      split <;> simp_all
    refine finish (Master.sentTasks_grow fenced keeps sentOn) fun open_ => ?_
    rw [written]
    by_cases same : k = l
    · have encoded : encodeDocument floatRepr depth (Master.taskRequest t task) =
          .ok ((Master.taskRequest t task).document floatRepr) := by
        simp [encodeDocument, accepted, Except.map]
      obtain ⟨task', found', type, payload⟩ := keeps t task found
      rw [same, arriving_here there' open_, if_pos rfl]
      simp [taskOf_taskRequest encoded, found', TaskMessage.ofTask, type, payload]
    · rw [arriving_elsewhere same, if_neg same]
      rfl

/-- What arrives is decoded, and a TASK has the fields a worker reads. -/
theorem arriving_decoded (taken : m.step a = some m')
    (identified : ∀ l message now, a = .receive l message now → message.requestId ≠ "") :
    ∀ document ∈ arriving floatRepr m' (m'.written a) l, ∃ message, decodeMessage document = .ok message ∧
      (message.type = .task → message.task?.isSome = true) := by
  intro document member
  have here : ∀ {k : LinkId} {message : Message}, m'.written a = some (k, message) →
      document = message.document floatRepr := by
    intro k message written
    rw [written, arriving] at member
    split at member
    · exact List.mem_singleton.mp member
    · cases member
  cases Master.step_writes taken with
  | nothing silent _ =>
    rw [silent] at member
    cases member
  | @reply k _ message response now ws received _ _ _ handled _ written _ =>
    obtain ⟨_, decoded⟩ := reply_carried floatRepr handled (identified k message now received)
    exact ⟨response, here written ▸ decoded, fun isTask => absurd isTask (handleRequest_type handled)⟩
  | @task _ t task _ _ depth _ _ _ accepted _ written =>
    have encoded : encodeDocument floatRepr depth (Master.taskRequest t task) = .ok document := by
      simp [encodeDocument, accepted, Except.map, here written]
    refine ⟨_, decode_of_encode (taskRequest_formed t task) encoded, fun _ => ?_⟩
    rw [task?_taskRequest]
    rfl

/-- Nothing arrives at an unknown link but replies to what it said. -/
theorem arriving_unknown (recorded : Succession.Recorded m.seats) (taken : m.step a = some m')
    (there : m.links[l]? = some link) (unknown : link.Unknown) (other : ∀ message now, a ≠ .receive l message now) :
    arriving floatRepr m' (m'.written a) l = [] := by
  cases Master.step_writes taken with
  | nothing silent _ => rw [silent, arriving_none]
  | @reply k _ message _ now _ received _ _ _ _ _ written _ =>
    rw [written]
    refine arriving_elsewhere fun same => other message now ?_
    rw [received, same]
  | @task _ _ _ w k _ _ _ seat _ _ written =>
    rw [written]
    refine arriving_elsewhere fun same => ?_
    exact Master.known_of_seat recorded (same ▸ seat) there unknown

end Arriving

/-! ### The greeting -/

/-- How far worker and master are with the greeting on link `l`. A reply that is missing
was not written, or the link was lost. -/
inductive Greeting (m : Master) (l : LinkId) (link : Link) (p : Peer) : Prop
  | connected : p.phase = .connected → link.Unknown → p.inbox = [] → p.outbox = [] → Greeting m l link p
  | pinging {uuid : String} {document : Json} : p.phase = .pinging (newRequestId uuid) → link.Unknown →
      p.inbox = [] → p.outbox = [document] → decodeMessage document = .ok (Peer.pingRequest uuid) →
      Greeting m l link p
  | ponged {requestId : String} {document : Json} : p.phase = .pinging requestId → link.Unknown →
      p.inbox = [document] → p.outbox = [] →
      decodeMessage document = .ok (buildMessage .pong requestId [("status", .str "success")]) → Greeting m l link p
  | unponged {requestId : String} : p.phase = .pinging requestId → link.Unknown → p.inbox = [] → p.outbox = [] →
      Greeting m l link p
  | registering {uuid : String} {document : Json} : p.phase = .registering (newRequestId uuid) → link.Unknown →
      p.inbox = [] → p.outbox = [document] → decodeMessage document = .ok (p.registerRequest uuid) →
      Greeting m l link p
  | registered {requestId : String} {document : Json} {rest : List Json} {reply : Message} :
      p.phase = .registering requestId → p.inbox = document :: rest → p.outbox = [] →
      decodeMessage document = .ok reply → reply.requestId = requestId →
      (reply.type = .registerAck ∧ (∃ generation, Event.registered p.workerId generation l ∈ m.history) ∨
        reply.type = .error) → Greeting m l link p
  | unregistered {requestId : String} : p.phase = .registering requestId → p.inbox = [] → p.outbox = [] →
      link.Unknown ∨ link.lost = true → Greeting m l link p
  | greeted : p.isServing = true ∨ p.phase = .ended → Greeting m l link p

section Greeting
variable {m m' : Master} {a : Action} {l : LinkId} {link link' : Link} {p p' : Peer}
variable {document : Json} {rest : List Json} {message response : Message} {now : Time} {ws : WorkerManager}

theorem greeting_fresh (m : Master) (l : LinkId) (runtime : Runtime) (workerId : WorkerId) (host : String)
    (port : Int) : Greeting m l Link.fresh (Peer.fresh runtime workerId host port) :=
  .connected rfl ⟨rfl, rfl⟩ rfl rfl

/-- The greeting depends on the master only for the registration it notes. -/
theorem Greeting.mono (greeting : Greeting m l link p) (history : ∀ event ∈ m.history, event ∈ m'.history) :
    Greeting m' l link p := by
  cases greeting with
  | connected phase new inbox outbox => exact .connected phase new inbox outbox
  | pinging phase new inbox outbox decoded => exact .pinging phase new inbox outbox decoded
  | ponged phase new inbox outbox decoded => exact .ponged phase new inbox outbox decoded
  | unponged phase new inbox outbox => exact .unponged phase new inbox outbox
  | registering phase new inbox outbox decoded => exact .registering phase new inbox outbox decoded
  | registered phase inbox outbox decoded named answer =>
    refine .registered phase inbox outbox decoded named (answer.imp_left ?_)
    rintro ⟨ack, generation, noted⟩
    exact ⟨ack, generation, history _ noted⟩
  | unregistered phase inbox outbox gone => exact .unregistered phase inbox outbox gone
  | greeted done => exact .greeted done

/-- What a worker reads in answer to PING or REGISTER is no TASK. -/
theorem Greeting.not_task (greeting : Greeting m l link p) {requestId : String}
    (awaits : p.phase = .pinging requestId ∨ p.phase = .registering requestId)
    (arrived : p.inbox = document :: rest) : taskOf document = none := by
  cases greeting with
  | connected phase => simp [phase] at awaits
  | pinging _ _ empty | unponged _ _ empty | registering _ _ empty | unregistered _ empty =>
    rw [empty] at arrived
    cases arrived
  | ponged _ _ inbox _ decoded =>
    rw [inbox] at arrived
    cases arrived
    exact taskOf_of_other decoded (fun same => by cases same)
  | @registered _ _ _ reply _ inbox _ decoded _ answer =>
    rw [inbox] at arrived
    cases arrived
    refine taskOf_of_other decoded fun same => ?_
    rcases answer with ⟨ack, _⟩ | error
    · cases same.symm.trans ack
    · cases same.symm.trans error
  | greeted done =>
    rcases awaits with phase | phase <;> simp [Peer.isServing, phase] at done

theorem overWire_registerRequest (p : Peer) (uuid : String) :
    (p.registerRequest uuid).overWire floatRepr = p.registerRequest uuid := by
  simp [Message.overWire, Peer.registerRequest, buildMessage, Val.document, Json.loads]

/-- The worker goes on with the greeting. -/
theorem Greeting.does (greeting : Greeting m l link p) (does : Peer.Does floatRepr p p') : Greeting m l link p' := by
  have ended : ∀ {message : Message} {next : PeerPhase} {q : Peer},
      (∀ document, encodeDocument floatRepr q.runtime.jsonDepth message = .ok document →
        Greeting m l link { q with outbox := q.outbox ++ [document], phase := next }) →
      Greeting m l link (q.send floatRepr message next) := by
    intro message next q sent
    unfold Peer.send
    split
    · exact sent _ ‹_›
    · exact .greeted (.inr rfl)
  cases does with
  | pings uuid phase =>
    refine ended fun document encoded => ?_
    cases greeting with
    | connected _ unknown inbox outbox =>
      exact .pinging rfl unknown inbox (by rw [outbox]; rfl)
        (decode_of_encode (Peer.pingRequest_formed uuid) encoded)
    | pinging other | ponged other | unponged other | registering other | registered other
    | unregistered other => cases phase.symm.trans other
    | greeted done => simp [Peer.isServing, phase] at done
  | @registers requestId document rest message uuid phase arrived decoded =>
    refine ended fun written encoded => ?_
    cases greeting with
    | ponged _ unknown inbox outbox _ =>
      rw [inbox] at arrived
      cases arrived
      refine .registering rfl unknown rfl (by rw [outbox]; rfl) ?_
      rw [decode_of_encode (Peer.registerRequest_formed p uuid) encoded, overWire_registerRequest]
      rfl
    | pinging _ _ empty | unponged _ _ empty =>
      rw [empty] at arrived
      cases arrived
    | connected other | registering other | registered other | unregistered other =>
      cases phase.symm.trans other
    | greeted done => simp [Peer.isServing, phase] at done
  | enters => exact .greeted (.inl rfl)
  | ignores phase => exact .greeted (.inl (by simp [Peer.isServing, phase]))
  | begins => exact .greeted (.inl rfl)
  | fails => exact .greeted (.inr rfl)
  | answers => exact ended fun _ _ => .greeted (.inl rfl)
  | breaks => exact .greeted (.inr rfl)
  | reports stopping serving => exact ended fun _ _ => .greeted (.inl serving)

/-- A step of the master that reads nothing from the worker. -/
theorem Greeting.step (greeting : Greeting m l link p) (recorded : Succession.Recorded m.seats)
    (taken : m.step a = some m') (there : m.links[l]? = some link) (there' : m'.links[l]? = some link')
    (history : ∀ event ∈ m.history, event ∈ m'.history) (other : ∀ message now, a ≠ .receive l message now) :
    Greeting m' l link' { p with inbox := p.inbox ++ arriving floatRepr m' (m'.written a) l } := by
  have unknown : link.Unknown → link'.Unknown := by
    intro unknown
    rcases Master.step_unknown taken there unknown there' with still | ⟨message, _, now, _, _, received, _⟩
    · exact still
    · exact absurd received (other message now)
  have lost : link.lost = true → link'.lost = true := by
    obtain ⟨same, found, still⟩ := Master.step_keeps_lost taken there
    obtain rfl := Option.some.inj (there'.symm.trans found)
    exact still
  have nothing : link.Unknown → arriving floatRepr m' (m'.written a) l = [] :=
    fun unknown => arriving_unknown recorded taken there unknown other
  cases greeting with
  | connected phase new inbox outbox => exact .connected phase (unknown new) (by simp [nothing new, inbox]) outbox
  | pinging phase new inbox outbox decoded =>
    exact .pinging phase (unknown new) (by simp [nothing new, inbox]) outbox decoded
  | ponged phase new inbox outbox decoded =>
    exact .ponged phase (unknown new) (by simp [nothing new, inbox]) outbox decoded
  | unponged phase new inbox outbox => exact .unponged phase (unknown new) (by simp [nothing new, inbox]) outbox
  | registering phase new inbox outbox decoded =>
    exact .registering phase (unknown new) (by simp [nothing new, inbox]) outbox decoded
  | registered phase inbox outbox decoded named answer =>
    refine .registered phase (by rw [inbox]; rfl) outbox decoded named (answer.imp_left ?_)
    rintro ⟨ack, generation, noted⟩
    exact ⟨ack, generation, history _ noted⟩
  | unregistered phase inbox outbox gone =>
    refine .unregistered phase ?_ outbox (gone.imp unknown lost)
    rcases gone with new | gone
    · simp [nothing new, inbox]
    · simp [arriving_lost there' (lost gone), inbox]
  | greeted done => exact .greeted done

/-- What comes back for a message read on link `l`: nothing, or the reply. -/
theorem arriving_reply (floatRepr : BitVec 64 → String) (taken : m.step (.receive l message now) = some m')
    (there' : m'.links[l]? = some link') (identified : message.requestId ≠ "") :
    arriving floatRepr m' (m'.written (.receive l message now)) l = [] ∧
        (link'.lost = true ∨ m'.written (.receive l message now) = none) ∨
      ∃ document response ws, arriving floatRepr m' (m'.written (.receive l message now)) l = [document] ∧
        decodeMessage document = .ok response ∧ response.requestId = message.requestId ∧
        handleRequest m.workers message now = .ok (response, ws) ∧ m' = m.answered l message response ws now := by
  cases Master.step_writes taken with
  | nothing silent _ => exact .inl ⟨by rw [silent, arriving_none], .inr silent⟩
  | reply received _ _ _ handled after written _ =>
    cases received
    obtain ⟨same, decoded⟩ := reply_carried floatRepr handled identified
    cases open_ : link'.lost with
    | true => exact .inl ⟨arriving_lost there' open_ _, .inl rfl⟩
    | false =>
      refine .inr ⟨_, _, _, ?_, decoded, same, handled, after⟩
      rw [written, arriving_here there' open_]
  | task starts => cases starts

theorem registered_noted {w : WorkerId} (granted : grantedRegistration m.workers message now = some (w, ws)) :
    ∃ generation, Event.registered w generation l ∈ (m.answered l message response ws now).history := by
  obtain ⟨⟨worker, found, _⟩, _⟩ := Master.generationOf_registered granted
  refine ⟨worker.generation, List.mem_append_right _ ?_⟩
  simp [Master.registrationEvents, granted, found]

/-- A REGISTER is acknowledged, with the registration noted, or refused. -/
theorem register_answered {uuid : String}
    (handled : handleRequest m.workers (p.registerRequest uuid) now = .ok (response, ws)) :
    response.type = .registerAck ∧ (∃ generation, Event.registered p.workerId generation l ∈
        (m.answered l (p.registerRequest uuid) response ws now).history) ∨ response.type = .error := by
  have replied : handleRegister m.workers (p.registerRequest uuid) now = (response, ws) := Except.ok.inj handled
  cases handleRequest_handled handled with
  | @registered w _ granted ack =>
    obtain ⟨_, _, named, _⟩ := grantedRegistration_some granted
    obtain rfl : p.workerId = w := Val.str.inj named
    exact .inl ⟨ack, registered_noted granted⟩
  | unchanged _ notAck =>
    right
    unfold handleRegister at replied
    split at replied
    · cases replied
      rfl
    · cases replied
      rfl
    · cases replied
      exact absurd rfl notAck
  | beat other _ _ _ => cases other
  | drained other _ _ _ _ => cases other

/-- The master reads the next document of the worker. -/
theorem Greeting.deliver (greeting : Greeting m l link p) (taken : m.step (.receive l message now) = some m')
    (there : m.links[l]? = some link) (there' : m'.links[l]? = some link') (said : p.outbox = document :: rest)
    (decoded : decodeMessage document = .ok message) :
    Greeting m' l link' { p with
      outbox := rest
      inbox := p.inbox ++ arriving floatRepr m' (m'.written (.receive l message now)) l } := by
  have unknown : link.Unknown → link'.Unknown ∨ ∃ request response, link'.pc = .replying request response ∧
      grantedRegistration m.workers message now ≠ none := by
    intro unknown
    rcases Master.step_unknown taken there unknown there' with still | ⟨_, _, _, _, _, received, replying, granted⟩
    · exact .inl still
    · cases received
      exact .inr ⟨_, _, replying, by simp [granted]⟩
  have reply := arriving_reply floatRepr taken there' (requestId_of_decode decoded)
  cases greeting with
  | @pinging uuid _ phase new inbox outbox ping =>
    rw [outbox] at said
    cases said
    obtain rfl := Except.ok.inj (decoded.symm.trans ping)
    have still : link'.Unknown := by
      rcases unknown new with still | ⟨_, _, _, granted⟩
      · exact still
      · exact absurd (grantedRegistration_of_ne fun same => by cases same) granted
    rcases reply with ⟨none, _⟩ | ⟨answer, response, ws, arrived, read, _, handled, _⟩
    · exact .unponged phase still (by simp [inbox, none]) rfl
    · cases handled
      have heard : p.inbox ++ _ = [answer] := (congrArg (p.inbox ++ ·) arrived).trans (by rw [inbox]; rfl)
      exact .ponged phase still heard rfl read
  | @registering uuid _ phase new inbox outbox register =>
    rw [outbox] at said
    cases said
    obtain rfl := Except.ok.inj (decoded.symm.trans register)
    rcases reply with ⟨none, gone⟩ | ⟨answer, response, ws, arrived, read, named, handled, after⟩
    · refine .unregistered phase (by simp [inbox, none]) rfl ?_
      rcases gone with lost | silent
      · exact .inr lost
      · refine .inl ((unknown new).resolve_right ?_)
        rintro ⟨request, response, replying, _⟩
        simp [Master.written, there', replying] at silent
    · have heard : p.inbox ++ _ = [answer] := (congrArg (p.inbox ++ ·) arrived).trans (by rw [inbox]; rfl)
      refine .registered phase heard rfl read named ?_
      rw [after]
      exact register_answered handled
  | connected _ _ _ outbox | ponged _ _ _ outbox | unponged _ _ _ outbox | registered _ _ outbox
  | unregistered _ _ outbox =>
    rw [outbox] at said
    cases said
  | greeted done => exact .greeted done

end Greeting
end Cluster
end DistributedCompute
