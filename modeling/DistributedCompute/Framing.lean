import DistributedCompute.ByteStream
import DistributedCompute.Values

/-! The length-prefixed frames of `Connection` and `AsyncConnection`. The transport
delivers the bytes sent, or a prefix of them, and then ends; `cut` says how many bytes
each `recv` of the blocking socket would like to return. `readexactly` of the asyncio
stream is taken at its documented behaviour. -/
namespace DistributedCompute
open Py ByteStream

def lengthPrefixSize : Nat := 4

def closedEarly : Exn := ⟨"ConnectionError", "Socket closed before expected data was received"⟩

def frame (data : Bytes) : Bytes := bigEndian lengthPrefixSize data.length ++ data

/-- `send_bytes`, of either class: what the stream holds afterwards. -/
def sendBytes (stream data : Bytes) : Except Exn Bytes :=
  if data.length < 2 ^ 32 then .ok (stream ++ frame data)
  else .error ⟨"struct.error", "'I' format requires 0 <= number <= 4294967295"⟩

/-- `recv_bytes`, of either class: the prefix, then as many bytes as it says. -/
def recvFrame {σ : Type} (recvExact : Nat → σ → Except Exn Bytes × σ) (s : σ) : Except Exn Bytes × σ :=
  match recvExact lengthPrefixSize s with
  | (.ok header, s) => recvExact (value header) s
  | (.error exn, s) => (.error exn, s)

namespace Connection

/-- The loop of `_recv_exact`. -/
def recvLoop (cut : Nat → Nat) (remaining : Nat) (chunks : List Bytes) (s : Socket) : Except Exn Bytes × Socket :=
  if 0 < remaining then
    let chunk := (s.recv cut remaining).1
    if chunk = [] then (.error closedEarly, (s.recv cut remaining).2)
    else recvLoop cut (remaining - chunk.length) (chunks ++ [chunk]) (s.recv cut remaining).2
  else (.ok chunks.flatten, s)
termination_by remaining
decreasing_by
  have received : 0 < (s.recv cut remaining).1.length := List.length_pos_of_ne_nil ‹_›
  exact Nat.sub_lt ‹_› received

def recvExact (cut : Nat → Nat) (numBytes : Nat) (s : Socket) : Except Exn Bytes × Socket :=
  recvLoop cut numBytes [] s

def recvBytes (cut : Nat → Nat) : Socket → Except Exn Bytes × Socket := recvFrame (recvExact cut)

end Connection

namespace AsyncConnection

def recvExact (numBytes : Nat) (left : Bytes) : Except Exn Bytes × Bytes :=
  match readExactly numBytes left with
  | (some bytes, left) => (.ok bytes, left)
  | (none, left) => (.error closedEarly, left)

def recvBytes : Bytes → Except Exn Bytes × Bytes := recvFrame recvExact

end AsyncConnection

/-- What a number of successive calls give. -/
def successive {σ : Type} (recvBytes : σ → Except Exn Bytes × σ) : Nat → σ → List (Except Exn Bytes)
  | 0, _ => []
  | calls + 1, s => (recvBytes s).1 :: successive recvBytes calls (recvBytes s).2

/-- The messages whose frames lie wholly within the first `n` bytes of the stream. -/
def wholeFrames : List Bytes → Nat → List Bytes
  | [], _ => []
  | data :: rest, n =>
    let size := lengthPrefixSize + data.length
    if size ≤ n then data :: wholeFrames rest (n - size) else []

/-- What `calls` calls should give when the stream ends after `n` bytes: the whole
frames in order, then `ConnectionError` every time. -/
def deliveries (messages : List Bytes) (n calls : Nat) : List (Except Exn Bytes) :=
  ((wholeFrames messages n).map Except.ok ++ List.replicate calls (Except.error closedEarly)).take calls

/-! ### The blocking socket reads what `readexactly` would -/

/-- The first reader does on a socket what the second does on the bytes it has left. -/
def ReadsAlike (f : Socket → Except Exn Bytes × Socket) (g : Bytes → Except Exn Bytes × Bytes) : Prop :=
  ∀ s, (f s).1 = (g s.left).1 ∧ (f s).2.left = (g s.left).2

theorem AsyncConnection.recvExact_append {n : Nat} {front : Bytes} (left : Bytes) (fits : front.length ≤ n) :
    AsyncConnection.recvExact n (front ++ left) =
      ((AsyncConnection.recvExact (n - front.length) left).1.map (front ++ ·),
        (AsyncConnection.recvExact (n - front.length) left).2) := by
  unfold AsyncConnection.recvExact
  rw [readExactly_append left fits]
  obtain ⟨_ | bytes, rest⟩ := readExactly (n - front.length) left <;> rfl

theorem recvLoop_eq (cut : Nat → Nat) (remaining : Nat) (chunks : List Bytes) (s : Socket) :
    (Connection.recvLoop cut remaining chunks s).1 =
        (AsyncConnection.recvExact remaining s.left).1.map (chunks.flatten ++ ·) ∧
      (Connection.recvLoop cut remaining chunks s).2.left = (AsyncConnection.recvExact remaining s.left).2 := by
  induction remaining, chunks, s using Connection.recvLoop.induct cut with
  | case1 remaining chunks s wanted chunk ended =>
    rw [Connection.recvLoop, if_pos wanted, if_pos ended]
    have nothing : s.left = [] := recv_eq_nil.mp ended
    have left : (s.recv cut remaining).2.left = [] := by
      have whole := recv_append cut remaining s
      rw [nothing] at whole
      exact (List.append_eq_nil_iff.mp whole).2
    rw [nothing, AsyncConnection.recvExact, readExactly_nil wanted]
    exact ⟨rfl, left⟩
  | case2 remaining chunks s wanted chunk received ih =>
    rw [Connection.recvLoop, if_pos wanted, if_neg received]
    rw [← recv_append cut remaining s,
      AsyncConnection.recvExact_append _ (length_recv wanted)]
    refine ⟨ih.1.trans ?_, ih.2⟩
    cases (AsyncConnection.recvExact (remaining - chunk.length) (s.recv cut remaining).2.left).1 with
    | error exn => rfl
    | ok bytes => simp [Except.map, chunk]
  | case3 remaining chunks s done =>
    obtain rfl : remaining = 0 := by omega
    rw [Connection.recvLoop, if_neg done]
    simp [AsyncConnection.recvExact, readExactly, Except.map]

theorem recvExact_alike (cut : Nat → Nat) (numBytes : Nat) :
    ReadsAlike (Connection.recvExact cut numBytes) (AsyncConnection.recvExact numBytes) := by
  intro s
  obtain ⟨bytes, left⟩ := recvLoop_eq cut numBytes [] s
  refine ⟨bytes.trans ?_, left⟩
  cases (AsyncConnection.recvExact numBytes s.left).1 <;> rfl

theorem ReadsAlike.recvFrame {f : Nat → Socket → Except Exn Bytes × Socket}
    {g : Nat → Bytes → Except Exn Bytes × Bytes}
    (alike : ∀ n, ReadsAlike (f n) (g n)) : ReadsAlike (recvFrame f) (recvFrame g) := by
  intro s
  have header := (alike lengthPrefixSize s).1
  have left := (alike lengthPrefixSize s).2
  unfold DistributedCompute.recvFrame
  generalize f lengthPrefixSize s = got at header left
  generalize g lengthPrefixSize s.left = expected at header left
  obtain ⟨_ | read, rest⟩ := got <;> obtain ⟨_, _⟩ := expected <;> cases header <;> cases left
  · exact ⟨rfl, rfl⟩
  · exact alike (value read) rest

theorem ReadsAlike.successive {f : Socket → Except Exn Bytes × Socket} {g : Bytes → Except Exn Bytes × Bytes}
    (alike : ReadsAlike f g) (calls : Nat) (s : Socket) : successive f calls s = successive g calls s.left := by
  induction calls generalizing s with
  | zero => rfl
  | succ calls ih =>
    obtain ⟨result, left⟩ := alike s
    rw [DistributedCompute.successive, DistributedCompute.successive, result, ih, left]

theorem recvBytes_alike (cut : Nat → Nat) : ReadsAlike (Connection.recvBytes cut) AsyncConnection.recvBytes :=
  ReadsAlike.recvFrame (recvExact_alike cut)

/-! ### Frames in a stream that may end early -/

namespace AsyncConnection

theorem recvExact_exact (front left : Bytes) : recvExact front.length (front ++ left) = (.ok front, left) := by
  rw [recvExact_append left le_rfl, Nat.sub_self]
  simp [recvExact, readExactly, Except.map]

theorem recvExact_short {n : Nat} {left : Bytes} (short : left.length < n) :
    recvExact n left = (.error closedEarly, []) := by
  rw [recvExact, readExactly, if_neg (Nat.not_le_of_lt short)]

theorem recvBytes_frame {data : Bytes} (short : data.length < 2 ^ 32) (left : Bytes) :
    recvBytes (frame data ++ left) = (.ok data, left) := by
  have header : recvExact lengthPrefixSize (frame data ++ left) =
      (.ok (bigEndian lengthPrefixSize data.length), data ++ left) := by
    have read := recvExact_exact (bigEndian lengthPrefixSize data.length) (data ++ left)
    rwa [length_bigEndian, ← List.append_assoc] at read
  rw [recvBytes, recvFrame, header]
  show recvExact (value (bigEndian lengthPrefixSize data.length)) (data ++ left) = _
  rw [value_bigEndian short, recvExact_exact]

theorem recvBytes_truncated {data : Bytes} {n : Nat} (short : data.length < 2 ^ 32)
    (cut : n < lengthPrefixSize + data.length) :
    recvBytes ((frame data).take n) = (.error closedEarly, []) := by
  rw [recvBytes, recvFrame]
  by_cases header : n < lengthPrefixSize
  · have few : ((frame data).take n).length < lengthPrefixSize :=
      Nat.lt_of_le_of_lt (List.length_take_le n _) header
    rw [recvExact_short few]
  · -- The prefix is whole and promises more than the stream has left.
    have front : (frame data).take n =
        bigEndian lengthPrefixSize data.length ++ data.take (n - lengthPrefixSize) := by
      rw [frame, List.take_append, length_bigEndian, List.take_of_length_le]
      rw [length_bigEndian]
      omega
    have read := recvExact_exact (bigEndian lengthPrefixSize data.length) (data.take (n - lengthPrefixSize))
    rw [length_bigEndian] at read
    rw [front, read]
    show recvExact (value (bigEndian lengthPrefixSize data.length)) (data.take (n - lengthPrefixSize)) = _
    rw [value_bigEndian short]
    apply recvExact_short
    rw [List.length_take]
    omega

theorem successive_nil (calls : Nat) : successive recvBytes calls [] = List.replicate calls (.error closedEarly) := by
  induction calls with
  | zero => rfl
  | succ calls ih =>
    have ended : recvBytes [] = (.error closedEarly, []) := rfl
    rw [successive, ended, ih, List.replicate_succ]

theorem successive_take {messages : List Bytes} (short : ∀ data ∈ messages, data.length < 2 ^ 32) (n calls : Nat) :
    successive recvBytes calls ((messages.flatMap frame).take n) = deliveries messages n calls := by
  induction messages generalizing n calls with
  | nil => simp [successive_nil, deliveries, wholeFrames]
  | cons data rest ih =>
    obtain ⟨dataShort, restShort⟩ := List.forall_mem_cons.mp short
    have size : (frame data).length = lengthPrefixSize + data.length := by simp [frame]
    cases calls with
    | zero => simp [successive, deliveries]
    | succ calls =>
      rw [List.flatMap_cons, List.take_append, size, deliveries, wholeFrames, successive]
      by_cases whole : lengthPrefixSize + data.length ≤ n
      · rw [List.take_of_length_le (size.trans_le whole), recvBytes_frame dataShort, if_pos whole,
          ih restShort, deliveries]
        simp only [List.map_cons, List.cons_append, List.take_succ_cons, List.take_append,
          List.take_replicate, List.length_map]
        have enough (got : Nat) : min (calls - got) (calls + 1) = min (calls - got) calls := by omega
        rw [enough]
      · rw [Nat.sub_eq_zero_of_le (Nat.le_of_not_le whole), List.take_zero, List.append_nil,
          recvBytes_truncated dataShort (Nat.lt_of_not_le whole), if_neg whole, successive_nil]
        simp [List.replicate_succ]

end AsyncConnection

theorem foldlM_sendBytes {messages : List Bytes} (short : ∀ data ∈ messages, data.length < 2 ^ 32) (stream : Bytes) :
    messages.foldlM sendBytes stream = .ok (stream ++ messages.flatMap frame) := by
  induction messages generalizing stream with
  | nil => simp [pure, Except.pure]
  | cons data rest ih =>
    obtain ⟨dataShort, restShort⟩ := List.forall_mem_cons.mp short
    have sent : sendBytes stream data = .ok (stream ++ frame data) := if_pos dataShort
    rw [List.foldlM_cons, sent]
    show rest.foldlM sendBytes (stream ++ frame data) = _
    rw [ih restShort, List.flatMap_cons, List.append_assoc]

theorem wholeFrames_all {messages : List Bytes} {n : Nat} (all : (messages.flatMap frame).length ≤ n) :
    wholeFrames messages n = messages := by
  induction messages generalizing n with
  | nil => rfl
  | cons data rest ih =>
    rw [List.flatMap_cons, List.length_append, frame, List.length_append, length_bigEndian] at all
    rw [wholeFrames, if_pos (by omega), ih (by omega)]

/-- Messages sent on one connection are received one by one however the stream is cut;
where it ends early, the whole frames are received and every later call raises
`ConnectionError`. Both classes give the same. -/
theorem frames_received {messages : List Bytes} (short : ∀ data ∈ messages, data.length < 2 ^ 32) :
    ∃ stream, messages.foldlM sendBytes [] = .ok stream ∧
      (∀ n, stream.length ≤ n → wholeFrames messages n = messages) ∧
      ∀ n calls : Nat,
        (∀ (cut : Nat → Nat) (reads : Nat),
          successive (Connection.recvBytes cut) calls ⟨stream.take n, reads⟩ = deliveries messages n calls) ∧
        successive AsyncConnection.recvBytes calls (stream.take n) = deliveries messages n calls := by
  refine ⟨messages.flatMap frame, foldlM_sendBytes short [], fun n => wholeFrames_all, ?_⟩
  intro n calls
  have async := AsyncConnection.successive_take short n calls
  refine ⟨fun cut reads => ?_, async⟩
  exact ((recvBytes_alike cut).successive calls ⟨_, reads⟩).trans async

/-- An empty message and one that loses its last byte, delivered byte by byte. -/
theorem truncatedStream_received :
    ∃ stream, [[], [7, 9]].foldlM sendBytes [] = .ok stream ∧ stream.length = 10 ∧
      successive (Connection.recvBytes fun _ => 1) 2 ⟨stream.take 9, 0⟩ = [.ok [], .error closedEarly] := by
  obtain ⟨stream, sent, -, received⟩ := @frames_received [[], [7, 9]] (by decide)
  refine ⟨stream, sent, ?_, (received 9 2).1 _ 0⟩
  obtain rfl : _ = stream := Except.ok.inj sent
  rfl

end DistributedCompute
