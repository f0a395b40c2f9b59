import DistributedCompute.AsyncWorker
import DistributedCompute.Json
import DistributedCompute.RpcHandler

/-! Messages on the wire: what `decode_message` makes of a message that
`encode_message` wrote, and what that means for the replies of `handle_request`. Texts
are the documents they spell; a document that is no JSON, and strings with surrogates,
are left out here. -/
namespace DistributedCompute
open Py

def MsgType.ofName : String → MsgType
  | "PING" => .ping
  | "PONG" => .pong
  | "REGISTER" => .register
  | "REGISTER_ACK" => .registerAck
  | "TASK" => .task
  | "TASK_RESULT" => .taskResult
  | "HEARTBEAT" => .heartbeat
  | "HEARTBEAT_ACK" => .heartbeatAck
  | "SHUTDOWN" => .shutdown
  | "SHUTDOWN_ACK" => .shutdownAck
  | "ERROR" => .error
  | name => .other name

/-- The document of a message that `encode_message` accepts. -/
def Message.document (floatRepr : BitVec 64 → String) (m : Message) : Json := m.toVal.document floatRepr

/-- The document that `encode_message` writes, or what it raises. -/
def encodeDocument (floatRepr : BitVec 64 → String) (depth : Nat) (m : Message) : Except EncodeFault Json :=
  (encodeMessage depth m).map (Message.document floatRepr)

inductive DecodeFault
  | protocolError (text : String)
  | valueError (text : String)
  deriving DecidableEq, Repr

/-- `validate_message`, with the fields it has checked. -/
def validateMessage : Val → Except String (String × String × List (Key × Val))
  | .dict entries =>
    match entry "type" entries, entry "request_id" entries, entry "payload" entries with
    | none, _, _ => .error "Missing required field: type"
    | some _, none, _ => .error "Missing required field: request_id"
    | some _, some _, none => .error "Missing required field: payload"
    | some type, some requestId, some payload =>
      match nonEmptyStr type, nonEmptyStr requestId, payload with
      | none, _, _ => .error "Field 'type' must be a non-empty string"
      | some _, none, _ => .error "Field 'request_id' must be a non-empty string"
      | some type, some requestId, .dict fields => .ok (type, requestId, fields)
      | some _, some _, _ => .error "Field 'payload' must be an object"
  | _ => .error "Message must be a JSON object"

def stringFields (entries : List (Key × Val)) : List (String × Val) :=
  entries.filterMap (fun e => match e.1 with | .str name => some (name, e.2) | _ => none)

/-- `decode_message`, on a stack that is deep enough for the document. An integer with too many
digits raises a plain ValueError. -/
def decodeMessage (document : Json) : Except DecodeFault Message :=
  match document.readError with
  | some text => .error (.valueError text)
  | none =>
    match validateMessage document.loads with
    | .error text => .error (.protocolError text)
    | .ok (type, requestId, payload) => .ok ⟨MsgType.ofName type, requestId, stringFields payload⟩

/-! ### The round trip of a message -/

/-- A message as the program builds it: with a type of its own, a request_id, and each
field once. -/
structure Message.Formed (m : Message) : Prop where
  type : MsgType.ofName m.type.name = m.type
  typed : m.type.name ≠ ""
  identified : m.requestId ≠ ""
  fields : (m.payload.map Prod.fst).Nodup

theorem stringFields_map (fields : List (String × Val)) :
    stringFields (fields.map (fun e => (.str e.1, e.2))) = fields := by
  induction fields with
  | nil => rfl
  | cons e rest ih =>
    rw [List.map_cons, stringFields, List.filterMap_cons]
    exact congrArg (e :: ·) ih

section RoundTrip
variable (floatRepr : BitVec 64 → String) {m : Message}

theorem loads_toVal (formed : m.Formed) : (m.toVal.document floatRepr).loads =
    .dict [(.str "type", .str m.type.name), (.str "request_id", .str m.requestId),
      (.str "payload", .dict (m.payload.map (fun e => (.str e.1, (e.2.document floatRepr).loads))))] := by
  have inner : (m.payload.map (fun e => (Key.str e.1, e.2))).map (fun e => e.1.canon) =
      (m.payload.map Prod.fst).map Key.str := by
    simp [Function.comp_def, Key.canon]
  have fields : ((m.payload.map (fun e => (Key.str e.1, e.2))).map (fun e => e.1.canon)).Nodup := by
    rw [inner]
    exact formed.fields.map fun a b same => Key.str.inj same
  have strings : ∀ e ∈ m.payload.map (fun e => (Key.str e.1, e.2)), e.1.isStr = true := by
    intro e member
    obtain ⟨_, _, rfl⟩ := List.mem_map.mp member
    rfl
  rw [Message.toVal, Val.loads_dict (by simp [Key.isStr]) (by simp [Key.canon])]
  simp only [List.map_cons, List.map_nil, Val.loads_dict strings fields, List.map_map, Function.comp_def]
  simp only [Val.document, Json.loads]

/-- A message that can be encoded is decoded, with each value as `json.loads` reads it. -/
theorem decode_document (formed : m.Formed) (accepted : m.toVal.jsonError = none) :
    decodeMessage (m.document floatRepr) =
      .ok { m with payload := m.payload.map (fun e => (e.1, (e.2.document floatRepr).loads)) } := by
  have again : (m.document floatRepr).readError = none := Val.readError_document floatRepr accepted
  have checked : validateMessage (m.document floatRepr).loads = .ok (m.type.name, m.requestId,
      (m.payload.map (fun e => (e.1, (e.2.document floatRepr).loads))).map (fun e => (Key.str e.1, e.2))) := by
    rw [Message.document, loads_toVal floatRepr formed]
    simp [validateMessage, entry, nonEmptyStr, formed.typed, formed.identified]
  simp only [decodeMessage, again, checked, stringFields_map, formed.type]

/-- A document that `encode_message` wrote. -/
theorem document_of_encode {depth : Nat} {document : Json}
    (encoded : encodeDocument floatRepr depth m = .ok document) :
    document = m.document floatRepr ∧ m.toVal.jsonError = none := by
  unfold encodeDocument at encoded
  cases accepted : encodeMessage depth m with
  | error fault => simp [accepted, Except.map] at encoded
  | ok same =>
    obtain rfl := eq_of_encodeMessage accepted
    rw [accepted] at encoded
    exact ⟨(Except.ok.inj encoded).symm, (Val.jsonFault_eq_none_iff.mp (encodeMessage_ok_iff.mp accepted)).1⟩

end RoundTrip

/-! ### The replies of `handle_request` -/

/-- A reply: the request_id of the request, and texts. The registry is as it was when
the reply is an error. -/
structure Replies (ws : WorkerManager) (request response : Message) (ws' : WorkerManager) : Prop where
  type : MsgType.ofName response.type.name = response.type ∧ response.type.name ≠ ""
  requestId : response.requestId = request.requestId
  texts : ∃ texts : List (String × String), (texts.map Prod.fst).Nodup ∧
    response.payload = texts.map (fun e => (e.1, .str e.2))
  unchanged : response.type = .error → ws' = ws

variable {ws ws' : WorkerManager} {request response : Message} {now : Time}

theorem replies_error (ws : WorkerManager) (request : Message) (code text : String) :
    Replies ws request (buildError request.requestId code text) ws :=
  ⟨⟨rfl, (by decide : "ERROR" ≠ "")⟩, rfl, ⟨[("code", code), ("message", text)], by simp, rfl⟩, fun _ => rfl⟩

/-- An acknowledgement that is not an error. -/
theorem replies_ack {type : MsgType} (known : MsgType.ofName type.name = type ∧ type.name ≠ "" ∧ type ≠ .error) :
    Replies ws request (buildMessage type request.requestId [("status", .str "success")]) ws' :=
  ⟨⟨known.1, known.2.1⟩, rfl, ⟨[("status", "success")], by decide, rfl⟩, fun error => absurd error known.2.2⟩

theorem replies_register (ws : WorkerManager) (request : Message) (now : Time) :
    Replies ws request (handleRegister ws request now).1 (handleRegister ws request now).2 := by
  unfold handleRegister
  split
  · exact replies_error ws request _ _
  · exact replies_error ws request _ _
  · exact ⟨⟨rfl, (by decide : "REGISTER_ACK" ≠ "")⟩, rfl,
      ⟨[("status", "success"), ("message", "Worker registered")], by decide, rfl⟩, fun error => by cases error⟩

/-- HEARTBEAT and SHUTDOWN look a worker up by an arbitrary value, which has to be
hashable. -/
def hashableWorkerId (request : Message) : Bool :=
  match (argument request "worker_id").lookup with
  | .unhashable _ => false
  | _ => true

def handleable (request : Message) : Bool :=
  match request.type with
  | .heartbeat | .shutdown => hashableWorkerId request
  | _ => true

theorem lookup_of_hashable (hashable : hashableWorkerId request = true) :
    (argument request "worker_id").lookup = .absent ∨ ∃ w, (argument request "worker_id").lookup = .named w := by
  unfold hashableWorkerId at hashable
  cases found : (argument request "worker_id").lookup with
  | unhashable ty =>
    rw [found] at hashable
    cases hashable
  | absent => exact .inl rfl
  | named w => exact .inr ⟨w, rfl⟩

theorem handleHeartbeat_replies (hashable : hashableWorkerId request = true) :
    ∃ response ws', handleHeartbeat ws request now = .ok (response, ws') ∧ Replies ws request response ws' := by
  unfold handleHeartbeat
  rcases lookup_of_hashable hashable with found | ⟨w, found⟩ <;> rw [found]
  · exact ⟨_, _, rfl, replies_error ws request _ _⟩
  · dsimp only
    split
    · exact ⟨_, _, rfl, replies_error ws request _ _⟩
    · exact ⟨_, _, rfl, replies_ack (by decide)⟩

theorem handleShutdown_replies (hashable : hashableWorkerId request = true) :
    ∃ response ws', handleShutdown ws request = .ok (response, ws') ∧ Replies ws request response ws' := by
  unfold handleShutdown
  rcases lookup_of_hashable hashable with found | ⟨w, found⟩ <;> rw [found]
  · exact ⟨_, _, rfl, replies_error ws request _ _⟩
  · dsimp only
    split
    · exact ⟨_, _, rfl, replies_error ws request _ _⟩
    · exact ⟨_, _, rfl, replies_ack (by decide)⟩

theorem handleRequest_replies (ws : WorkerManager) (now : Time) (fits : handleable request = true) :
    ∃ response ws', handleRequest ws request now = .ok (response, ws') ∧ Replies ws request response ws' := by
  unfold handleable at fits
  unfold handleRequest
  cases type : request.type <;> rw [type] at fits <;> dsimp only at fits ⊢
  case ping => exact ⟨_, _, rfl, replies_ack (by decide)⟩
  case register => exact ⟨_, _, rfl, replies_register ws request now⟩
  case heartbeat => exact handleHeartbeat_replies fits
  case shutdown => exact handleShutdown_replies fits
  all_goals exact ⟨_, _, rfl, replies_error ws request _ _⟩

theorem handleable_of_ok (handled : handleRequest ws request now = .ok (response, ws')) :
    handleable request = true := by
  unfold handleRequest at handled
  unfold handleable hashableWorkerId
  cases type : request.type <;> rw [type] at handled <;> dsimp only at handled ⊢
  case heartbeat =>
    unfold handleHeartbeat at handled
    cases found : (argument request "worker_id").lookup with
    | unhashable ty =>
      rw [found] at handled
      cases handled
    | absent | named => rfl
  case shutdown =>
    unfold handleShutdown at handled
    cases found : (argument request "worker_id").lookup with
    | unhashable ty =>
      rw [found] at handled
      cases handled
    | absent | named => rfl

theorem nonEmptyStr_some {v : Val} {s : String} (given : nonEmptyStr v = some s) : s ≠ "" := by
  unfold nonEmptyStr at given
  split at given
  · split at given
    · cases given
    · rename_i nonEmpty
      cases given
      exact nonEmpty
  · cases given

theorem validateMessage_ok {v : Val} {type requestId : String} {payload : List (Key × Val)}
    (valid : validateMessage v = .ok (type, requestId, payload)) : requestId ≠ "" := by
  unfold validateMessage at valid
  split at valid
  · split at valid <;> try cases valid
    split at valid <;> cases valid
    exact nonEmptyStr_some ‹_›
  · cases valid

theorem requestId_of_decode {document : Json} (decoded : decodeMessage document = .ok request) :
    request.requestId ≠ "" := by
  unfold decodeMessage at decoded
  split at decoded
  · cases decoded
  · split at decoded
    · cases decoded
    · rename_i valid
      cases decoded
      exact validateMessage_ok valid

/-- A reply is flat: it is encoded on any stack, and decoded as it was. -/
theorem Replies.carried (replies : Replies ws request response ws') (identified : request.requestId ≠ "")
    (floatRepr : BitVec 64 → String) : decodeMessage (response.document floatRepr) = .ok response ∧
      ∀ depth, 2 ≤ depth → encodeDocument floatRepr depth response = .ok (response.document floatRepr) := by
  obtain ⟨texts, distinct, payload⟩ := replies.texts
  have formed : response.Formed := by
    refine ⟨replies.type.1, replies.type.2, by rw [replies.requestId]; exact identified, ?_⟩
    rw [payload, List.map_map]
    exact distinct
  have flat : ∀ e ∈ response.payload, e.2.jsonError = none ∧ e.2.nesting = 0 := by
    rw [payload, List.forall_mem_map]
    exact fun _ _ => ⟨rfl, rfl⟩
  have accepted := jsonError_toVal_iff.mpr fun e member => (flat e member).1
  have same : response.payload.map (fun e => (e.1, (e.2.document floatRepr).loads)) = response.payload := by
    rw [payload, List.map_map]
    exact List.map_congr_left fun e _ => by simp [Val.document, Json.loads]
  refine ⟨(decode_document floatRepr formed accepted).trans (by rw [same]), fun depth room => ?_⟩
  have encodes : encodeMessage depth response = .ok response := by
    refine encodes_iff.mpr ⟨room, fun e member => ?_⟩
    obtain ⟨fine, shallow⟩ := flat e member
    exact ⟨fine, by omega⟩
  rw [encodeDocument, encodes]
  rfl

/-- Every message that `decode_message` accepts gets a reply exactly when its worker_id,
where one is looked up, is hashable. The reply has its request_id and survives the wire;
when it is an error, the registry is as it was. -/
theorem request_answered {document : Json} (decoded : decodeMessage document = .ok request) (ws : WorkerManager)
    (now : Time) (floatRepr : BitVec 64 → String) :
    (handleable request = true ↔ ∃ response ws', handleRequest ws request now = .ok (response, ws')) ∧
    ∀ response ws', handleRequest ws request now = .ok (response, ws') →
      response.requestId = request.requestId ∧
      (∃ reply, (∀ depth, 2 ≤ depth → encodeDocument floatRepr depth response = .ok reply) ∧
        decodeMessage reply = .ok response) ∧
      (response.type = .error → ws' = ws) := by
  refine ⟨⟨fun fits => ?_, fun ⟨_, _, handled⟩ => handleable_of_ok handled⟩, fun response ws' handled => ?_⟩
  · obtain ⟨response, ws', handled, _⟩ := handleRequest_replies ws now fits
    exact ⟨response, ws', handled⟩
  · obtain ⟨other, left, same, replies⟩ := handleRequest_replies ws now (handleable_of_ok handled)
    cases handled.symm.trans same
    obtain ⟨arrives, sent⟩ := replies.carried (requestId_of_decode decoded) floatRepr
    exact ⟨replies.requestId, ⟨_, sent, arrives⟩, replies.unchanged⟩

def heartbeatOf (workerId : Val) : Message := ⟨.heartbeat, "r", [("worker_id", workerId)]⟩

theorem heartbeatOf_formed (workerId : Val) : (heartbeatOf workerId).Formed :=
  ⟨rfl, (by decide : "HEARTBEAT" ≠ ""), (by decide : "r" ≠ ""), by simp [heartbeatOf]⟩

/-- A heartbeat of an unknown worker is answered. -/
theorem unknownHeartbeat_answered : ∃ response ws', handleRequest ∅ (heartbeatOf (.str "w")) 0 = .ok (response, ws') ∧
    response.requestId = "r" ∧ (response.type = .error → ws' = ∅) := by
  have decoded := decode_document (fun _ => "") (heartbeatOf_formed (.str "w")) rfl
  simp only [heartbeatOf, List.map_cons, List.map_nil, Val.document, Json.loads] at decoded
  obtain ⟨answered, sound⟩ := request_answered decoded ∅ 0 (fun _ => "")
  obtain ⟨response, ws', handled⟩ := answered.mp rfl
  obtain ⟨requestId, _, unchanged⟩ := sound response ws' handled
  exact ⟨response, ws', handled, requestId, unchanged⟩

/-- A heartbeat with a list as worker_id is a valid message; the lookup raises TypeError. -/
theorem listHeartbeat_raises : ∃ document, decodeMessage document = .ok (heartbeatOf (.list [])) ∧
    ∀ ws now, handleRequest ws (heartbeatOf (.list [])) now = .error "unhashable type: 'list'" := by
  have decoded := decode_document (fun _ => "") (heartbeatOf_formed (.list [])) rfl
  simp only [heartbeatOf, List.map_cons, List.map_nil, Val.document, Json.loads] at decoded
  exact ⟨_, decoded, fun _ _ => rfl⟩

end DistributedCompute
