import DistributedCompute.Json

/-! The RPC message format of `rpc/protocol.py`. A message that left
`json.dumps` is represented by the message it encodes. -/
namespace DistributedCompute
open Py

inductive MsgType
  | ping
  | pong
  | register
  | registerAck
  | task
  | taskResult
  | heartbeat
  | heartbeatAck
  | shutdown
  | shutdownAck
  | error
  | other (name : String)
  deriving DecidableEq, Repr

def MsgType.name : MsgType → String
  | .ping => "PING"
  | .pong => "PONG"
  | .register => "REGISTER"
  | .registerAck => "REGISTER_ACK"
  | .task => "TASK"
  | .taskResult => "TASK_RESULT"
  | .heartbeat => "HEARTBEAT"
  | .heartbeatAck => "HEARTBEAT_ACK"
  | .shutdown => "SHUTDOWN"
  | .shutdownAck => "SHUTDOWN_ACK"
  | .error => "ERROR"
  | .other name => name

structure Message where
  type : MsgType
  requestId : String
  payload : List (String × Val)
  deriving Repr

def Message.get? (m : Message) (name : String) : Option Val := field name m.payload

def buildMessage (type : MsgType) (requestId : String) (payload : List (String × Val)) : Message :=
  ⟨type, requestId, payload⟩

/-- The dict that a message is. -/
def Message.toVal (m : Message) : Val :=
  .dict [(.str "type", .str m.type.name), (.str "request_id", .str m.requestId),
    (.str "payload", .dict (m.payload.map (fun e => (.str e.1, e.2))))]

inductive EncodeFault
  | protocolError (text : String)
  | recursionError
  deriving DecidableEq, Repr

/-- `encode_message`, called where `json.dumps` may recurse `depth` times. Only TypeError and
ValueError become a `ProtocolError`. -/
def encodeMessage (depth : Nat) (m : Message) : Except EncodeFault Message :=
  match m.toVal.jsonFault true depth with
  | none => .ok m
  | some (.typeError text) | some (.valueError text) => .error (.protocolError s!"Failed to encode message: {text}")
  | some .recursionError => .error .recursionError

/-- `encode_message` raises `ProtocolError`. -/
def refused (depth : Nat) (m : Message) : Bool :=
  match encodeMessage depth m with
  | .error (.protocolError _) => true
  | _ => false

variable {depth : Nat} {m : Message}

theorem eq_of_encodeMessage {encoded : Message} (accepted : encodeMessage depth m = .ok encoded) :
    encoded = m := by
  unfold encodeMessage at accepted
  split at accepted
  · exact (Except.ok.inj accepted).symm
  all_goals cases accepted

theorem encodeMessage_ok_iff :
    encodeMessage depth m = .ok m ↔ m.toVal.jsonFault true depth = none := by
  unfold encodeMessage
  cases m.toVal.jsonFault true depth with
  | none => simp
  | some fault => cases fault <;> simp

theorem jsonError_toVal_iff : m.toVal.jsonError = none ↔ ∀ e ∈ m.payload, e.2.jsonError = none := by
  have fields : entriesJsonError (m.payload.map (fun e => (.str e.1, e.2))) = none ↔
      ∀ e ∈ m.payload, e.2.jsonError = none := by
    rw [entriesJsonError_eq_none, List.forall_mem_map]
    simp [Key.jsonError]
  simp [Message.toVal, Val.jsonError, entriesJsonError, Key.jsonError, fields]

/-- A message holds the fields of its payload two containers deep. -/
theorem nesting_toVal_iff :
    m.toVal.nesting ≤ depth ↔ 2 ≤ depth ∧ ∀ e ∈ m.payload, e.2.nesting + 2 ≤ depth := by
  have fields (room : Nat) : entriesNesting (m.payload.map (fun e => (.str e.1, e.2))) ≤ room ↔
      ∀ e ∈ m.payload, e.2.nesting ≤ room := by
    rw [entriesNesting_le_iff, List.forall_mem_map]
  simp only [Message.toVal, Val.nesting, entriesNesting]
  constructor
  · intro fits
    have inside := (fields (depth - 2)).mp (by omega)
    refine ⟨by omega, fun e member => ?_⟩
    have fit := inside e member
    omega
  · rintro ⟨room, each⟩
    have inside := (fields (depth - 2)).mpr fun e member => Nat.le_sub_of_add_le (each e member)
    omega

/-- A RecursionError says that the message is nested too deep. -/
theorem nesting_of_encode (deep : encodeMessage depth m = .error .recursionError) :
    depth < m.toVal.nesting := by
  unfold encodeMessage at deep
  split at deep
  case h_4 => exact Val.nesting_of_recursionError ‹_›
  all_goals cases deep

/-- A message is encoded exactly if each field of its payload is accepted and its nesting fits. -/
theorem encodes_iff : encodeMessage depth m = .ok m ↔
    2 ≤ depth ∧ ∀ e ∈ m.payload, e.2.jsonError = none ∧ e.2.nesting + 2 ≤ depth := by
  rw [encodeMessage_ok_iff, Val.jsonFault_eq_none_iff, jsonError_toVal_iff, nesting_toVal_iff]
  constructor
  · rintro ⟨accepted, room, fits⟩
    exact ⟨room, fun e member => ⟨accepted e member, fits e member⟩⟩
  · rintro ⟨room, each⟩
    exact ⟨fun e member => (each e member).1, room, fun e member => (each e member).2⟩

/-- A TASK_RESULT whose payload reports success. -/
def Message.isSuccess (m : Message) : Bool :=
  m.type = .taskResult && (match m.get? "status" with | some (.str s) => s = "success" | _ => false)

/-! ### Responses in a list -/

/-- The payload names task `t`. -/
def Message.about (t : String) (response : Message) : Bool :=
  match response.get? "task_id" with
  | some (.str u) => u = t
  | _ => false

/-- The last of the responses whose payload names `t`. -/
def lastAnswer (t : String) (responses : List Message) : Option Message :=
  (responses.filter (Message.about t)).getLast?

theorem about_unique {t u : String} {response : Message} (first : response.about t = true)
    (second : response.about u = true) : t = u := by
  unfold Message.about at first second
  split at first
  · simp_all
  · cases first

theorem lastAnswer_append (t : String) (responses results : List Message) :
    lastAnswer t (responses ++ results) = (lastAnswer t results).or (lastAnswer t responses) := by
  simp [lastAnswer, List.filter_append, List.getLast?_append]

theorem lastAnswer_of_only {t : String} {response : Message} {results : List Message} (member : response ∈ results)
    (about : response.about t = true) (only : ∀ other ∈ results, other.about t = true → other = response) :
    lastAnswer t results = some response := by
  rcases last : lastAnswer t results with _ | other
  · rw [lastAnswer, List.getLast?_eq_none_iff, List.filter_eq_nil_iff] at last
    exact absurd about (last response member)
  · obtain ⟨held, named⟩ := List.mem_filter.mp (List.mem_of_getLast? last)
    rw [only other held named]

end DistributedCompute
