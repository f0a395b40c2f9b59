import DistributedCompute.Condemnation
import DistributedCompute.Futures

/-! Reply correlation on one `WorkerLink`: any number of `send_task` calls, each
suspended in `send_message` or on its future, against the messages read from the
connection, cancellations of the calls and `fail_pending`. What a TASK carries beside
its request_id is left out: a request that cannot be encoded is a `send_message` that
raises. A message of a superseded link never reaches `resolve` and is no event here. -/
namespace DistributedCompute
open Py Futures Transition

/-- A message read from the connection; `arrival` tells equal messages apart. -/
structure Incoming where
  arrival : Nat
  message : Message

inductive SendOutcome
  | returned (incoming : Incoming)
  | raised (exn : Exn)
  | cancelled

/-- Where a `send_task` call is suspended, or how it ended. -/
inductive SendPhase
  | writing
  | awaiting
  | ended (outcome : SendOutcome)

def SendPhase.active : SendPhase → Bool
  | .ended _ => false
  | _ => true

/-- `mustCancel`: the call was cancelled and has not been told yet. -/
structure Send where
  taskId : TaskId
  attempt : Nat
  phase : SendPhase
  mustCancel : Bool
  future : Future (Except Exn Incoming)

namespace Send

def requestId (send : Send) : String := attemptRequestId send.taskId send.attempt

/-- The call has not ended and nothing has been put into its future. -/
def unresolved (send : Send) : Bool := send.phase.active && !send.future.done

/-- `set_result` or `set_exception` on its future, unless that is done. -/
def fill (value : Except Exn Incoming) (send : Send) : Send := { send with future := send.future.fill value }

/-- How `await future` ends when the call is resumed. -/
def awaited (send : Send) : Option SendOutcome :=
  if send.mustCancel then some .cancelled
  else
    match send.future with
    | .pending => none
    | .result (.ok incoming) => some (.returned incoming)
    | .result (.error exn) => some (.raised exn)
    | .cancelled => some .cancelled

/-- `task.cancel()`: the future it waits on is cancelled; where that is not possible
the call is resumed with `CancelledError` the next time. -/
def cancel (send : Send) : Send :=
  match send.phase with
  | .ended _ => send
  | .writing => { send with mustCancel := true }
  | .awaiting =>
    if send.future.done then { send with mustCancel := true }
    else { send with future := send.future.cancel }

end Send

/-- `pending` maps a request_id to the place in `sends` of the call whose future it
holds; `passedOn` is what `handle_request` was called with. -/
structure WorkerLink where
  sends : List Send
  pending : Dict String Nat
  arrivals : Nat
  passedOn : List Incoming

inductive LinkEvent
  | sendTask (t : TaskId) (attempt : Nat)
  | messageSent (i : Nat)
  | sendRaises (i : Nat) (exn : Exn)
  | resume (i : Nat)
  | receive (message : Message)
  | cancel (i : Nat)
  | failPending (exn : Exn)

namespace WorkerLink

def fresh : WorkerLink := ⟨[], ∅, 0, []⟩

/-- `send_task` up to its first suspension. -/
def sendTask (link : WorkerLink) (t : TaskId) (attempt : Nat) : WorkerLink :=
  { link with
    sends := link.sends ++ [⟨t, attempt, .writing, false, .pending⟩]
    pending := link.pending.insert (attemptRequestId t attempt) link.sends.length }

/-- The call ends and its `finally` pops the future. -/
def finish (link : WorkerLink) (i : Nat) (send : Send) (outcome : SendOutcome) : WorkerLink :=
  { link with
    sends := link.sends.modify i (fun send => { send with phase := .ended outcome })
    pending := link.pending.erase send.requestId }

/-- What follows `await send_message(...)`: a future that is done is not waited for. -/
def awaitFuture (link : WorkerLink) (i : Nat) (send : Send) : WorkerLink :=
  match send.awaited with
  | none => { link with sends := link.sends.modify i (fun send => { send with phase := .awaiting }) }
  | some outcome => link.finish i send outcome

/-- The place of the future that `resolve` would set. -/
def resolves (link : WorkerLink) (requestId : String) : Option Nat :=
  (link.pending.get? requestId).filter (fun i => (link.sends[i]?).any (fun send => !send.future.done))

/-- The read loop on one message. -/
def receive (link : WorkerLink) (message : Message) : WorkerLink :=
  let incoming : Incoming := ⟨link.arrivals, message⟩
  let read := { link with arrivals := link.arrivals + 1 }
  match if message.requestId = "" then none else link.resolves message.requestId with
  | some i => { read with sends := link.sends.modify i (Send.fill (.ok incoming)) }
  | none => { read with passedOn := link.passedOn ++ [incoming] }

def failPending (link : WorkerLink) (exn : Exn) : WorkerLink :=
  { link with
    sends := link.sends.mapIdx (fun i send =>
      if i ∈ link.pending.values then send.fill (.error exn) else send) }

def perform (link : WorkerLink) : LinkEvent → Option WorkerLink
  | .sendTask t attempt => some (link.sendTask t attempt)
  | .messageSent i =>
    match link.sends[i]? with
    | some send => match send.phase with | .writing => some (link.awaitFuture i send) | _ => none
    | none => none
  | .sendRaises i exn =>
    match link.sends[i]? with
    | some send =>
      match send.phase with
      | .writing => some (link.finish i send (if send.mustCancel then .cancelled else .raised exn))
      | _ => none
    | none => none
  | .resume i =>
    match link.sends[i]? with
    | some send => match send.phase with | .awaiting => send.awaited.map (link.finish i send) | _ => none
    | none => none
  | .receive message => some (link.receive message)
  | .cancel i => some { link with sends := link.sends.modify i Send.cancel }
  | .failPending exn => some (link.failPending exn)

/-- No two calls share their task id and attempt. -/
def freshAttempt (link : WorkerLink) : LinkEvent → Prop
  | .sendTask t attempt => ∀ send ∈ link.sends, (send.taskId, send.attempt) ≠ (t, attempt)
  | _ => True

instance (link : WorkerLink) : (e : LinkEvent) → Decidable (link.freshAttempt e)
  | .sendTask t attempt =>
    inferInstanceAs (Decidable (∀ send ∈ link.sends, (send.taskId, send.attempt) ≠ (t, attempt)))
  | .messageSent _ | .sendRaises _ _ | .resume _ | .receive _ | .cancel _ | .failPending _ => isTrue trivial

/-! ### What one event can do -/

/-- The call goes on: it has not ended, and no message was put into its future. -/
structure GoesOn (before after : Send) : Prop where
  requestId : after.requestId = before.requestId
  active : after.phase.active = before.phase.active
  ended : before.phase.active = false → after = before
  future : after.future = before.future ∨ (before.future = .pending ∧ after.future = .cancelled)

/-- A call that returns has its message from its future. -/
def Justified (send : Send) (outcome : SendOutcome) : Prop :=
  ∀ incoming, outcome = .returned incoming → send.future = .result (.ok incoming)

inductive Change (link : WorkerLink) : LinkEvent → WorkerLink → Prop
  | sendTask (t : TaskId) (attempt : Nat) : Change link (.sendTask t attempt) (link.sendTask t attempt)
  | touch {e : LinkEvent} (i : Nat) (f : Send → Send)
      (quiet : ∀ send, link.sends[i]? = some send → GoesOn send (f send)) :
      Change link e { link with sends := link.sends.modify i f }
  | finish {e : LinkEvent} {i : Nat} {send : Send} {outcome : SendOutcome} (here : link.sends[i]? = some send)
      (active : send.phase.active = true) (justified : Justified send outcome) :
      Change link e (link.finish i send outcome)
  | receive (message : Message) : Change link (.receive message) (link.receive message)
  | failPending (exn : Exn) : Change link (.failPending exn) (link.failPending exn)

variable {send : Send} {outcome : SendOutcome} {link next : WorkerLink} {e : LinkEvent} {i : Nat}

theorem justified_awaited (over_ : send.awaited = some outcome) :
    Justified send outcome := by
  rintro incoming rfl
  unfold Send.awaited at over_
  split at over_
  · cases over_
  · split at over_ <;> cases over_
    assumption

theorem goesOn_cancel (send : Send) : GoesOn send send.cancel := by
  unfold Send.cancel
  split
  · exact ⟨rfl, rfl, fun _ => rfl, .inl rfl⟩
  · rename_i writing
    exact ⟨rfl, rfl, fun ended => by simp [writing, SendPhase.active] at ended, .inl rfl⟩
  · rename_i awaiting
    split
    · exact ⟨rfl, rfl, fun ended => by simp [awaiting, SendPhase.active] at ended, .inl rfl⟩
    · refine ⟨rfl, rfl, fun ended => by simp [awaiting, SendPhase.active] at ended, ?_⟩
      cases at_ : send.future with
      | pending => exact .inr ⟨rfl, rfl⟩
      | result _ | cancelled => exact .inl rfl

theorem change_of_perform (taken : link.perform e = some next) :
    Change link e next := by
  cases e with
  | sendTask t attempt =>
    obtain rfl := Option.some.inj taken
    exact .sendTask t attempt
  | messageSent i =>
    simp only [perform] at taken
    split at taken
    · rename_i send here
      split at taken
      · rename_i writing
        obtain rfl := Option.some.inj taken
        unfold awaitFuture
        split
        · refine .touch i _ fun other there => ?_
          obtain rfl := Option.some.inj (here.symm.trans there)
          exact ⟨rfl, by rw [writing]; rfl, fun ended => by simp [writing, SendPhase.active] at ended, .inl rfl⟩
        · rename_i outcome over_
          exact .finish here (by rw [writing]; rfl) (justified_awaited over_)
      · cases taken
    · cases taken
  | sendRaises i exn =>
    simp only [perform] at taken
    split at taken
    · rename_i send here
      split at taken
      · rename_i writing
        obtain rfl := Option.some.inj taken
        refine .finish here (by rw [writing]; rfl) ?_
        intro incoming returned
        split at returned <;> cases returned
      · cases taken
    · cases taken
  | resume i =>
    simp only [perform] at taken
    split at taken
    · rename_i send here
      split at taken
      · rename_i awaiting
        obtain ⟨outcome, over_, rfl⟩ := Option.map_eq_some_iff.mp taken
        exact .finish here (by rw [awaiting]; rfl) (justified_awaited over_)
      · cases taken
    · cases taken
  | receive message =>
    obtain rfl := Option.some.inj taken
    exact .receive message
  | cancel i =>
    obtain rfl := Option.some.inj taken
    exact .touch i Send.cancel fun send _ => goesOn_cancel send
  | failPending exn =>
    obtain rfl := Option.some.inj taken
    exact .failPending exn

/-- The read loop hands a message to the one call it resolves, or passes it on. -/
theorem receive_cases (link : WorkerLink) (message : Message) :
    (∃ i send, link.pending.get? message.requestId = some i ∧ link.sends[i]? = some send ∧ send.future = .pending ∧
        link.receive message = { link with
          arrivals := link.arrivals + 1
          sends := link.sends.modify i (Send.fill (.ok ⟨link.arrivals, message⟩)) }) ∨
      ((message.requestId = "" ∨ ∀ i send, link.pending.get? message.requestId = some i →
          link.sends[i]? = some send → send.future ≠ .pending) ∧
        link.receive message = { link with
          arrivals := link.arrivals + 1
          passedOn := link.passedOn ++ [⟨link.arrivals, message⟩] }) := by
  unfold receive
  by_cases unnamed : message.requestId = ""
  · rw [if_pos unnamed]
    exact .inr ⟨.inl unnamed, rfl⟩
  · rw [if_neg unnamed]
    cases found : link.resolves message.requestId with
    | some i =>
      obtain ⟨listed, open_⟩ := Option.filter_eq_some_iff.mp found
      obtain ⟨send, here, waiting⟩ := (Option.any_eq_true ..).mp open_
      refine .inl ⟨i, send, listed, here, ?_, rfl⟩
      cases at_ : send.future with
      | pending => rfl
      | result _ | cancelled => simp [at_, Future.done] at waiting
    | none =>
      refine .inr ⟨.inr fun i send listed here waiting => ?_, rfl⟩
      have set : link.resolves message.requestId = some i := by
        refine Option.filter_eq_some_iff.mpr ⟨listed, (Option.any_eq_true ..).mpr ⟨send, here, ?_⟩⟩
        rw [waiting]
        rfl
      cases found.symm.trans set

/-! ### The pending table lists the calls that have not ended -/

structure Indexed (link : WorkerLink) : Prop where
  listed : ∀ r i, link.pending.get? r = some i ↔
    ∃ send, link.sends[i]? = some send ∧ send.phase.active = true ∧ send.requestId = r
  distinct : ∀ {i j : Nat} {x y : Send}, link.sends[i]? = some x → link.sends[j]? = some y →
    x.requestId = y.requestId → i = j

/-- What the table depends on. -/
def entry (send : Send) : String × Bool := (send.requestId, send.phase.active)

theorem Indexed.congr (ok : Indexed link) (table : next.pending = link.pending)
    (same : ∀ i : Nat, (next.sends[i]?).map entry = (link.sends[i]?).map entry) : Indexed next := by
  have back {i : Nat} {y : Send} (there : next.sends[i]? = some y) :
      ∃ x, link.sends[i]? = some x ∧ x.requestId = y.requestId ∧ x.phase.active = y.phase.active := by
    have shape := same i
    rw [there] at shape
    obtain ⟨x, here, entry⟩ := Option.map_eq_some_iff.mp shape.symm
    obtain ⟨name, activity⟩ := Prod.mk.inj entry
    exact ⟨x, here, name, activity⟩
  have forth {i : Nat} {x : Send} (here : link.sends[i]? = some x) :
      ∃ y, next.sends[i]? = some y ∧ y.requestId = x.requestId ∧ y.phase.active = x.phase.active := by
    have shape := same i
    rw [here] at shape
    obtain ⟨y, there, entry⟩ := Option.map_eq_some_iff.mp shape
    obtain ⟨name, activity⟩ := Prod.mk.inj entry
    exact ⟨y, there, name, activity⟩
  constructor
  · intro r i
    rw [table, ok.listed]
    constructor
    · rintro ⟨x, here, active, rfl⟩
      obtain ⟨y, there, name, activity⟩ := forth here
      exact ⟨y, there, activity.trans active, name⟩
    · rintro ⟨y, there, active, rfl⟩
      obtain ⟨x, here, name, activity⟩ := back there
      exact ⟨x, here, activity.trans active, name⟩
  · intro i j x y first second name
    obtain ⟨x', here, nameX, -⟩ := back first
    obtain ⟨y', there, nameY, -⟩ := back second
    exact ok.distinct here there (nameX.trans (name.trans nameY.symm))

theorem entry_modify {f : Send → Send} (same : ∀ send, link.sends[i]? = some send → entry (f send) = entry send) :
    ∀ k : Nat, ((link.sends.modify i f)[k]?).map entry = (link.sends[k]?).map entry := by
  intro k
  rw [getElem?_modify_ite]
  split
  · rename_i at_
    subst at_
    cases here : link.sends[k]? with
    | none => rfl
    | some send => exact congrArg some (same send here)
  · rfl

theorem Indexed.fresh : Indexed fresh := by
  constructor
  · intro r i
    simp [WorkerLink.fresh]
  · intro i j x y first
    simp [WorkerLink.fresh] at first

theorem Indexed.sendTask (ok : Indexed link) {t : TaskId} {attempt : Nat}
    (new : ∀ send ∈ link.sends, (send.taskId, send.attempt) ≠ (t, attempt)) : Indexed (link.sendTask t attempt) := by
  have unlike {i : Nat} {send : Send} (here : link.sends[i]? = some send) :
      send.requestId ≠ attemptRequestId t attempt := by
    intro same
    obtain ⟨sameTask, sameAttempt⟩ := attemptRequestId_injective same
    exact new send (List.mem_of_getElem? here) (Prod.ext sameTask sameAttempt)
  constructor
  · intro r i
    show (link.pending.insert (attemptRequestId t attempt) link.sends.length).get? r = some i ↔ _
    rw [Dict.get?_insert]
    split
    · rename_i named
      subst named
      constructor
      · intro last
        obtain rfl := Option.some.inj last
        exact ⟨_, List.getElem?_concat_length .., rfl, rfl⟩
      · rintro ⟨send, there, active, name⟩
        rcases getElem?_concat_cases there with old | ⟨last, rfl⟩
        · exact absurd name (unlike old)
        · rw [last]
    · rename_i other
      rw [ok.listed]
      constructor
      · rintro ⟨send, here, active, name⟩
        obtain ⟨inside, _⟩ := List.getElem?_eq_some_iff.mp here
        exact ⟨send, by rwa [WorkerLink.sendTask, List.getElem?_append_left inside], active, name⟩
      · rintro ⟨send, there, active, name⟩
        rcases getElem?_concat_cases there with old | ⟨last, rfl⟩
        · exact ⟨send, old, active, name⟩
        · exact absurd name.symm other
  · intro i j x y first second name
    rcases getElem?_concat_cases first with old | ⟨last, rfl⟩
    · rcases getElem?_concat_cases second with old' | ⟨last', rfl⟩
      · exact ok.distinct old old' name
      · exact absurd name (unlike old)
    · rcases getElem?_concat_cases second with old' | ⟨last', rfl⟩
      · exact absurd name.symm (unlike old')
      · rw [last, last']

theorem Indexed.finish (ok : Indexed link) (here : link.sends[i]? = some send) :
    Indexed (link.finish i send outcome) := by
  have reads (k : Nat) : (link.finish i send outcome).sends[k]? =
      if k = i then (link.sends[k]?).map (fun send => { send with phase := .ended outcome }) else link.sends[k]? :=
    getElem?_modify_ite link.sends i k _
  constructor
  · intro r k
    show (link.pending.erase send.requestId).get? r = some k ↔ _
    rw [Dict.get?_erase, reads]
    by_cases same : k = i
    · subst same
      rw [if_pos rfl, here]
      constructor
      · intro listed
        split at listed
        · cases listed
        · rename_i other
          obtain ⟨x, there, -, name⟩ := (ok.listed r k).mp listed
          obtain rfl := Option.some.inj (here.symm.trans there)
          exact absurd name.symm other
      · rintro ⟨y, there, active, -⟩
        obtain rfl := Option.some.inj there
        cases active
    · rw [if_neg same, ← ok.listed]
      split
      · rename_i named
        subst named
        refine ⟨fun listed => (by cases listed), fun listed => ?_⟩
        obtain ⟨x, there, -, name⟩ := (ok.listed _ k).mp listed
        exact absurd (ok.distinct there here name) same
      · rfl
  · have back {k : Nat} {y : Send} (there : (link.finish i send outcome).sends[k]? = some y) :
        ∃ x, link.sends[k]? = some x ∧ x.requestId = y.requestId := by
      rw [reads] at there
      split at there
      · obtain ⟨x, old, rfl⟩ := Option.map_eq_some_iff.mp there
        exact ⟨x, old, rfl⟩
      · exact ⟨y, there, rfl⟩
    intro k j x y first second name
    obtain ⟨x', old, nameX⟩ := back first
    obtain ⟨y', old', nameY⟩ := back second
    exact ok.distinct old old' (nameX.trans (name.trans nameY.symm))

theorem Indexed.change (ok : Indexed link) (new : link.freshAttempt e) (change : Change link e next) :
    Indexed next := by
  cases change with
  | sendTask t attempt => exact ok.sendTask new
  | touch i f quiet =>
    refine ok.congr rfl (entry_modify fun send here => ?_)
    exact Prod.ext (quiet send here).requestId (quiet send here).active
  | finish here active justified => exact ok.finish here
  | receive message =>
    rcases receive_cases link message with ⟨i, send, -, -, -, read⟩ | ⟨-, read⟩
    · rw [read]
      exact ok.congr rfl (entry_modify fun _ _ => rfl)
    · rw [read]
      exact ok.congr rfl fun _ => rfl
  | failPending exn =>
    refine ok.congr rfl fun i => ?_
    rw [failPending, List.getElem?_mapIdx, Option.map_map]
    congr 1
    funext send
    dsimp only [Function.comp]
    split <;> rfl

/-! ### Every message goes to the call it answers, and to one only -/

structure Attributed (link : WorkerLink) : Prop where
  answers : ∀ {i : Nat} {send : Send} {incoming : Incoming}, link.sends[i]? = some send →
    send.future = .result (.ok incoming) →
      incoming.message.requestId = send.requestId ∧ incoming.arrival < link.arrivals
  single : ∀ {i j : Nat} {x y : Send} {a b : Incoming}, link.sends[i]? = some x → link.sends[j]? = some y →
    x.future = .result (.ok a) → y.future = .result (.ok b) → a.arrival = b.arrival → i = j
  returns : ∀ {i : Nat} {send : Send}, link.sends[i]? = some send → ∀ outcome, send.phase = .ended outcome →
    Justified send outcome

/-- The message in the future of a call was there before. -/
structure Derives (before after : Send) : Prop where
  requestId : after.requestId = before.requestId
  future : ∀ incoming, after.future = .result (.ok incoming) → before.future = .result (.ok incoming)
  returns : ∀ outcome, after.phase = .ended outcome → Justified after outcome

theorem Attributed.derived (ok : Attributed link) (later : link.arrivals ≤ next.arrivals)
    (each : ∀ (i : Nat) (y : Send), next.sends[i]? = some y →
      (∃ x, link.sends[i]? = some x ∧ Derives x y) ∨ (y.phase = .writing ∧ y.future = .pending)) :
    Attributed next := by
  have back {i : Nat} {y : Send} {incoming : Incoming} (there : next.sends[i]? = some y)
      (holds : y.future = .result (.ok incoming)) :
      ∃ x, link.sends[i]? = some x ∧ x.requestId = y.requestId ∧ x.future = .result (.ok incoming) := by
    rcases each i y there with ⟨x, here, derived⟩ | ⟨-, waiting⟩
    · exact ⟨x, here, derived.requestId.symm, derived.future incoming holds⟩
    · cases waiting.symm.trans holds
  constructor
  · intro i y incoming there holds
    obtain ⟨x, here, name, held⟩ := back there holds
    obtain ⟨answers, early⟩ := ok.answers here held
    exact ⟨answers.trans name, Nat.lt_of_lt_of_le early later⟩
  · intro i j x y a b first second holdsA holdsB
    obtain ⟨x', here, -, heldA⟩ := back first holdsA
    obtain ⟨y', there, -, heldB⟩ := back second holdsB
    exact ok.single here there heldA heldB
  · intro i y there outcome ended
    rcases each i y there with ⟨x, -, derived⟩ | ⟨writing, -⟩
    · exact derived.returns outcome ended
    · cases writing.symm.trans ended

theorem GoesOn.derives {before after : Send} (goesOn : GoesOn before after)
    (returns : ∀ outcome, before.phase = .ended outcome → Justified before outcome) : Derives before after := by
  refine ⟨goesOn.requestId, fun incoming holds => ?_, fun outcome ended => ?_⟩
  · rcases goesOn.future with same | ⟨-, cancelled⟩
    · exact same.symm.trans holds
    · cases cancelled.symm.trans holds
  · have inactive : before.phase.active = false := by
      rw [← goesOn.active, ended]
      rfl
    rw [goesOn.ended inactive] at ended ⊢
    exact returns outcome ended

theorem Derives.refl (returns : ∀ outcome, send.phase = .ended outcome → Justified send outcome) :
    Derives send send :=
  ⟨rfl, fun _ holds => holds, returns⟩

theorem Derives.fail (exn : Exn) (returns : ∀ outcome, send.phase = .ended outcome → Justified send outcome) :
    Derives send (send.fill (.error exn)) := by
  unfold Send.fill
  cases at_ : send.future with
  | pending =>
    refine ⟨rfl, fun incoming holds => (by cases holds), fun outcome ended incoming returned => ?_⟩
    have held := returns outcome ended incoming returned
    cases at_.symm.trans held
  | result value =>
    refine ⟨rfl, fun incoming holds => at_.trans holds, fun outcome ended incoming returned => ?_⟩
    exact at_.symm.trans (returns outcome ended incoming returned)
  | cancelled =>
    refine ⟨rfl, fun incoming holds => (by cases holds), fun outcome ended incoming returned => ?_⟩
    exact at_.symm.trans (returns outcome ended incoming returned)

theorem Attributed.fresh : Attributed fresh := by
  constructor
  · intro i send incoming here
    simp [WorkerLink.fresh] at here
  · intro i j x y a b here
    simp [WorkerLink.fresh] at here
  · intro i send here
    simp [WorkerLink.fresh] at here

/-- Changing one call so that its message, if it has one, is as before. -/
theorem Attributed.modify (ok : Attributed link) {f : Send → Send} (arrivals : next.arrivals = link.arrivals)
    (sends : next.sends = link.sends.modify i f)
    (derived : ∀ send, link.sends[i]? = some send → Derives send (f send)) : Attributed next := by
  refine ok.derived arrivals.ge fun k y there => .inl ?_
  rw [sends, getElem?_modify_ite] at there
  split at there
  · rename_i at_
    subst at_
    obtain ⟨x, here, rfl⟩ := Option.map_eq_some_iff.mp there
    exact ⟨x, here, derived x here⟩
  · exact ⟨y, there, Derives.refl (ok.returns there)⟩

/-- A message that resolves the future of the call it names. -/
theorem Attributed.resolve (ok : Attributed link) {message : Message} (here : link.sends[i]? = some send)
    (waiting : send.future = .pending) (named : send.requestId = message.requestId) :
    Attributed { link with
      arrivals := link.arrivals + 1
      sends := link.sends.modify i (Send.fill (.ok ⟨link.arrivals, message⟩)) } := by
  -- A call that holds a message now held it before, or is the one just resolved.
  have back {k : Nat} {y : Send}
      (there : (link.sends.modify i (Send.fill (.ok ⟨link.arrivals, message⟩)))[k]? = some y) :
      (k = i ∧ y = { send with future := .result (.ok ⟨link.arrivals, message⟩) }) ∨
        (k ≠ i ∧ link.sends[k]? = some y) := by
    rw [getElem?_modify_ite] at there
    split at there
    · rename_i at_
      subst at_
      rw [here] at there
      obtain rfl := Option.some.inj there
      refine .inl ⟨rfl, ?_⟩
      rw [Send.fill, waiting]
      rfl
    · rename_i other
      exact .inr ⟨other, there⟩
  constructor
  · intro k y incoming there holds
    rcases back there with ⟨-, rfl⟩ | ⟨-, old⟩
    · cases holds
      exact ⟨named.symm, Nat.lt_succ_self _⟩
    · obtain ⟨answers, early⟩ := ok.answers old holds
      exact ⟨answers, Nat.lt_succ_of_lt early⟩
  · intro k j x y a b first second holdsA holdsB same
    rcases back first with ⟨rfl, rfl⟩ | ⟨-, old⟩
    · cases holdsA
      rcases back second with ⟨rfl, -⟩ | ⟨-, old'⟩
      · rfl
      · exact absurd same (Nat.ne_of_gt (ok.answers old' holdsB).2)
    · rcases back second with ⟨rfl, rfl⟩ | ⟨-, old'⟩
      · cases holdsB
        exact absurd same (Nat.ne_of_lt (ok.answers old holdsA).2)
      · exact ok.single old old' holdsA holdsB same
  · intro k y there outcome ended
    rcases back there with ⟨-, rfl⟩ | ⟨-, old⟩
    · intro incoming returned
      have held := ok.returns here outcome ended incoming returned
      cases waiting.symm.trans held
    · exact ok.returns old outcome ended

theorem Attributed.change (table : Indexed link) (ok : Attributed link) (change : Change link e next) :
    Attributed next := by
  cases change with
  | sendTask t attempt =>
    refine ok.derived le_rfl fun i y there => ?_
    rcases getElem?_concat_cases there with old | ⟨-, rfl⟩
    · exact .inl ⟨y, old, Derives.refl (ok.returns old)⟩
    · exact .inr ⟨rfl, rfl⟩
  | touch i f quiet =>
    exact ok.modify rfl rfl fun send here => (quiet send here).derives (ok.returns here)
  | @finish _ i send outcome here active justified =>
    refine ok.modify (i := i) rfl rfl fun other there => ?_
    obtain rfl := Option.some.inj (here.symm.trans there)
    refine ⟨rfl, fun _ holds => holds, ?_⟩
    rintro _ ⟨⟩
    exact justified
  | receive message =>
    rcases receive_cases link message with ⟨i, send, listed, here, waiting, read⟩ | ⟨-, read⟩
    · rw [read]
      obtain ⟨send', there, -, name⟩ := (table.listed _ i).mp listed
      obtain rfl := Option.some.inj (here.symm.trans there)
      exact ok.resolve here waiting name
    · rw [read]
      exact ok.derived (Nat.le_succ _) fun i y there => .inl ⟨y, there, Derives.refl (ok.returns there)⟩
  | failPending exn =>
    refine ok.derived le_rfl fun i y there => .inl ?_
    rw [failPending, List.getElem?_mapIdx] at there
    obtain ⟨x, here, rfl⟩ := Option.map_eq_some_iff.mp there
    refine ⟨x, here, ?_⟩
    split
    · exact Derives.fail exn (ok.returns here)
    · exact Derives.refl (ok.returns here)

/-! ### Whole runs -/

/-- Runs of one link in which no two calls share their task id and attempt. -/
abbrev Reaches (link next : WorkerLink) : Prop := Steps perform freshAttempt link next

theorem indexed_of_reaches (run : Reaches fresh link) : Indexed link :=
  run.invariant Indexed.fresh fun _ _ _ ok new taken => ok.change new (change_of_perform taken)

theorem attributed_of_reaches (run : Reaches fresh link) : Attributed link :=
  run.invariant_with (fun _ => indexed_of_reaches) Attributed.fresh
    fun _ _ _ table ok _ taken => ok.change table (change_of_perform taken)

theorem phase_of_change (change : Change link e next) (here : link.sends[i]? = some send)
    (ended : send.phase.active = false) :
    ∃ later, next.sends[i]? = some later ∧ later.phase = send.phase := by
  cases change with
  | sendTask t attempt =>
    obtain ⟨inside, _⟩ := List.getElem?_eq_some_iff.mp here
    exact ⟨send, by rwa [sendTask, List.getElem?_append_left inside], rfl⟩
  | touch k f quiet =>
    rw [getElem?_modify_ite, here]
    split
    · rename_i at_
      subst at_
      exact ⟨f send, rfl, by rw [(quiet send here).ended ended]⟩
    · exact ⟨send, rfl, rfl⟩
  | @finish _ k other outcome there active justified =>
    rw [finish, getElem?_modify_ite, here]
    split
    · rename_i at_
      subst at_
      obtain rfl := Option.some.inj (here.symm.trans there)
      cases ended.symm.trans active
    · exact ⟨send, rfl, rfl⟩
  | receive message =>
    rcases receive_cases link message with ⟨k, other, -, -, -, read⟩ | ⟨-, read⟩
    · rw [read, getElem?_modify_ite, here]
      split
      · exact ⟨_, rfl, rfl⟩
      · exact ⟨send, rfl, rfl⟩
    · rw [read]
      exact ⟨send, here, rfl⟩
  | failPending exn =>
    rw [failPending, List.getElem?_mapIdx, here]
    refine ⟨_, rfl, ?_⟩
    split <;> rfl

/-- How a call ended is never changed again. -/
theorem ended_kept (run : Reaches link next) (here : link.sends[i]? = some send)
    (ended : send.phase = .ended outcome) : ∃ later, next.sends[i]? = some later ∧ later.phase = .ended outcome := by
  refine run.invariant (I := fun link => ∃ later, link.sends[i]? = some later ∧ later.phase = .ended outcome)
    ⟨send, here, ended⟩ ?_
  rintro middle e after ⟨kept, there, phase⟩ - taken
  obtain ⟨later, afterwards, same⟩ := phase_of_change (change_of_perform taken) there (by rw [phase]; rfl)
  exact ⟨later, afterwards, same.trans phase⟩

theorem resolved_of_failPending (table : Indexed link) (exn : Exn) :
    ∀ send ∈ (link.failPending exn).sends, send.unresolved = false := by
  intro after member
  obtain ⟨i, there⟩ := List.getElem?_of_mem member
  rw [failPending, List.getElem?_mapIdx] at there
  obtain ⟨send, here, rfl⟩ := Option.map_eq_some_iff.mp there
  split
  · cases at_ : send.future <;> simp [Send.unresolved, Send.fill, at_, Future.fill, Future.done]
  · rename_i unlisted
    cases active : send.phase.active with
    | false => rw [Send.unresolved, active, Bool.false_and]
    | true => exact absurd (Dict.mem_values ((table.listed _ i).mpr ⟨send, here, active, rfl⟩)) unlisted

theorem unmatched_passedOn (table : Indexed link) {message : Message}
    (unmatched : ∀ send ∈ link.sends, send.unresolved = true → send.requestId ≠ message.requestId) :
    link.receive message = { link with
      arrivals := link.arrivals + 1
      passedOn := link.passedOn ++ [⟨link.arrivals, message⟩] } := by
  rcases receive_cases link message with ⟨i, send, listed, here, waiting, -⟩ | ⟨-, read⟩
  · obtain ⟨send', there, active, name⟩ := (table.listed _ i).mp listed
    obtain rfl := Option.some.inj (here.symm.trans there)
    refine absurd name (unmatched send (List.mem_of_getElem? here) ?_)
    rw [Send.unresolved, active, waiting]
    rfl
  · exact read

/-- Reply correlation on one link, over every run of it. -/
theorem replies_correlated {link : WorkerLink} (run : Reaches fresh link) :
    (∀ send ∈ link.sends, ∀ incoming, send.phase = .ended (.returned incoming) →
      incoming.message.requestId = attemptRequestId send.taskId send.attempt) ∧
    (∀ (i j : Nat) (x y : Send) (a b : Incoming), link.sends[i]? = some x → link.sends[j]? = some y →
      x.future = .result (.ok a) → y.future = .result (.ok b) → a.arrival = b.arrival → i = j) ∧
    (∀ next, Reaches link next → ∀ (i : Nat) (send : Send) (outcome : SendOutcome), link.sends[i]? = some send →
      send.phase = .ended outcome → ∃ later, next.sends[i]? = some later ∧ later.phase = .ended outcome) ∧
    (∀ message next, link.perform (.receive message) = some next →
      (∀ send ∈ link.sends, send.unresolved = true → send.requestId ≠ message.requestId) →
        next.sends = link.sends ∧ next.pending = link.pending ∧
          next.passedOn = link.passedOn ++ [⟨link.arrivals, message⟩]) ∧
    (∀ exn next, link.perform (.failPending exn) = some next → ∀ send ∈ next.sends, send.unresolved = false) ∧
    (∀ (t u : TaskId) (attempt number : Nat),
      attemptRequestId t attempt = attemptRequestId u number → t = u ∧ attempt = number) := by
  have table := indexed_of_reaches run
  have replies := attributed_of_reaches run
  refine ⟨?_, fun i j x y a b => replies.single, fun next later i send outcome => ended_kept later, ?_, ?_,
    fun t u attempt number => attemptRequestId_injective⟩
  · intro send member incoming returned
    obtain ⟨i, here⟩ := List.getElem?_of_mem member
    exact (replies.answers here (replies.returns here _ returned incoming rfl)).1
  · intro message next taken unmatched
    obtain rfl := Option.some.inj taken
    rw [unmatched_passedOn table unmatched]
    exact ⟨rfl, rfl, rfl⟩
  · intro exn next taken
    obtain rfl := Option.some.inj taken
    exact resolved_of_failPending table exn

/-- A reply and its duplicate, with a second call whose task id ends in a number. -/
theorem duplicateReply_correlated :
    ∃ link, Reaches fresh link ∧ (link.passedOn.length = 1 ∧ (link.sends.map Send.unresolved) = [false, true]) ∧
      ∀ send ∈ link.sends, ∀ incoming, send.phase = .ended (.returned incoming) →
        incoming.message.requestId = attemptRequestId send.taskId send.attempt := by
  have reached : ∃ link, Reaches fresh link ∧
      link.passedOn.length = 1 ∧ (link.sends.map Send.unresolved) = [false, true] := replay_reaches
    [.sendTask "a" 1, .sendTask "a:1" 1, .messageSent 0, .receive ⟨.taskResult, "task-a:1", []⟩,
      .receive ⟨.taskResult, "task-a:1", []⟩, .resume 0] (by decide)
  obtain ⟨link, run, shape⟩ := reached
  exact ⟨link, run, shape, (replies_correlated run).1⟩

end WorkerLink
end DistributedCompute
