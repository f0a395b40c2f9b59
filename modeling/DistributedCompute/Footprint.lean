import DistributedCompute.Connections

/-! The footprint of a move: what it does to one call of `dispatch_assigned_task`
and to one connection. Both relations list every reason for a change, so that an
invariant of a single call or connection is kept by excluding reasons. -/
namespace DistributedCompute
open Py Relation Transition
namespace Master

/-- What a move does to call `d`. -/
inductive Advance (m : Master) (a : Action) (d : DispatchId) : Dispatch → Dispatch → Prop
  | same (dispatch : Dispatch) : Advance m a d dispatch dispatch
  | failed {k : LinkId} {link : Link} {t : TaskId} {l : LinkId} {w : WorkerId} {attempt : Nat} {drained : Bool}
      (reason : String) : m.ending a = some (k, link) → d ∈ link.pending.values →
      Advance m a d ⟨t, .sending l w attempt drained .waiting⟩ ⟨t, .sending l w attempt drained (.failed reason)⟩
  | resolved {k : LinkId} {link : Link} {message : Message} {now : Time} {t : TaskId} {l : LinkId} {w : WorkerId}
      {attempt : Nat} {drained : Bool} : a = .receive k message now → m.links[k]? = some link →
      link.pending.get? message.requestId = some d →
      Advance m a d ⟨t, .sending l w attempt drained .waiting⟩ ⟨t, .sending l w attempt drained (.message message)⟩
  | started {t : TaskId} {depth : Nat} (pc : DispatchPc) : a = .startDispatch d depth →
      Advance m a d ⟨t, .spawned⟩ ⟨t, pc⟩
  | drained {t : TaskId} {l : LinkId} {w : WorkerId} {attempt : Nat} {reply : Reply} : a = .sendDrained d →
      Advance m a d ⟨t, .sending l w attempt false reply⟩ ⟨t, .sending l w attempt true reply⟩
  | sendLost {reason : String} {link : Link} {t : TaskId} {l : LinkId} {w : WorkerId} {attempt : Nat} {reply : Reply}
      {pc : DispatchPc} : a = .sendFails d reason → m.links[l]? = some link → link.lost = true →
      pc.isSending = false →
      Advance m a d ⟨t, .sending l w attempt false reply⟩ ⟨t, pc⟩
  | back {t : TaskId} {l : LinkId} {w : WorkerId} {attempt : Nat} {reply : Reply} {pc : DispatchPc} :
      a = .resumeDispatch d → reply ≠ .waiting → pc.isSending = false →
      Advance m a d ⟨t, .sending l w attempt true reply⟩ ⟨t, pc⟩
  | aborted {t : TaskId} {pc : DispatchPc} : a = .abortDispatch d → Advance m a d ⟨t, pc⟩ ⟨t, .raised⟩
  | finished {t : TaskId} {w : WorkerId} {attempt : Nat} {response : Message} : a = .connectionClosed d →
      Advance m a d ⟨t, .closing w attempt response⟩ ⟨t, .returned response⟩

variable {m m' : Master} {w : WorkerId} {response : Message} {a : Action}

theorem Unreached.dispatches {d : DispatchId} {t : TaskId} {attempt : Nat}
    (outcome : Unreached m d t w attempt response m') :
    ∃ pc, pc.isSending = false ∧ m'.dispatches = (m.setDispatch d pc).dispatches := by
  cases outcome with
  | late _ | unknown _ _ => exact ⟨_, rfl, rfl⟩
  | condemned _ _ =>
    refine ⟨.returned response, rfl, ?_⟩
    simp only [setDispatch, recordIfTerminal_dispatches, condemnedWorker]

theorem Settled.dispatches {d : DispatchId} {t : TaskId} {attempt : Nat}
    (outcome : Settled m d t w attempt response m') :
    ∃ pc, pc.isSending = false ∧ m'.dispatches = (m.setDispatch d pc).dispatches := by
  cases outcome with
  | late _ | malformed | unknown _ _ _ _ => exact ⟨_, rfl, rfl⟩
  | settled _ _ =>
    obtain ⟨pc, which, after⟩ := closeIfDraining_dispatches (m.finishedTask t w response) d t w attempt response
    refine ⟨pc, ?_, after⟩
    rcases which with rfl | rfl <;> rfl

section Advance
variable {m m' : Master} {a : Action} {d e : DispatchId} {dispatch : Dispatch} {t : TaskId} {old : DispatchPc}

/-- One call moves, the others stay. -/
theorem advance_of_setDispatch {pc : DispatchPc} (found : m.dispatches[d]? = some dispatch)
    (there : m.dispatches[e]? = some ⟨t, old⟩) (after : m'.dispatches = (m.setDispatch e pc).dispatches)
    (own : e = d → Advance m a e ⟨t, old⟩ ⟨t, pc⟩) :
    ∃ dispatch', m'.dispatches[d]? = some dispatch' ∧ Advance m a d dispatch dispatch' := by
  rw [after, dispatches_setDispatch]
  by_cases same : d = e
  · subst same
    rw [there] at found
    cases found
    exact ⟨⟨t, pc⟩, by simp [there], own rfl⟩
  · exact ⟨dispatch, by simp [same, found], .same dispatch⟩

theorem Micro.advance {mid : Master} (move : Micro m a mid) (found : m.dispatches[d]? = some dispatch) :
    ∃ dispatch', mid.dispatches[d]? = some dispatch' ∧ Advance m a d dispatch dispatch' := by
  cases move with
  | @cleanup _ l link named there turn _ =>
    rw [cleanup_dispatches, dispatches_failPending, found, Option.map_some]
    refine ⟨_, rfl, ?_⟩
    split
    · rename_i pending
      unfold Dispatch.failReply
      split
      · rename_i k w attempt drained waiting
        obtain ⟨u, pc⟩ := dispatch
        cases waiting
        exact .failed _ (ending_of_cleanup named there turn) pending
      · exact .same dispatch
    · exact .same dispatch
  | resolve there matched waiting =>
    exact advance_of_setDispatch found waiting rfl (fun same => .resolved rfl there (same ▸ matched))
  | install _ _ =>
    rw [install_dispatches]
    exact ⟨dispatch, found, .same dispatch⟩
  | startRaises spawned why =>
    refine advance_of_setDispatch found spawned rfl (fun _ => ?_)
    rcases why with rfl | ⟨⟨_, rfl⟩, _⟩
    · exact .aborted rfl
    · exact .started _ rfl
  | orphan spawned _ _ _ => exact advance_of_setDispatch found spawned rfl (fun _ => .started _ rfl)
  | @unreached d t task w _ spawned _ _ _ _ =>
    obtain ⟨pc, _, after⟩ := (unreachable_outcome (m.startedTask t) d t w task.attempt "no connection").dispatches
    exact advance_of_setDispatch found spawned after (fun _ => .started _ rfl)
  | @unencodable d t task w l _ reason spawned _ _ _ _ _ =>
    obtain ⟨pc, _, after⟩ := (unreachable_outcome ((m.startedTask t).popPending l t task.attempt) d t w task.attempt
      reason).dispatches
    exact advance_of_setDispatch found spawned after (fun _ => .started _ rfl)
  | overflow spawned _ _ _ _ _ => exact advance_of_setDispatch found spawned rfl (fun _ => .started _ rfl)
  | write spawned _ _ _ _ => exact advance_of_setDispatch found spawned rfl (fun _ => .started _ rfl)
  | drained sending => exact advance_of_setDispatch found sending rfl (fun _ => .drained rfl)
  | @sendLost d t l link w attempt reply reason sending there lost =>
    obtain ⟨pc, outside, after⟩ := (unreachable_outcome (m.popPending l t attempt) d t w attempt reason).dispatches
    exact advance_of_setDispatch found sending after (fun _ => .sendLost rfl there lost outside)
  | @replyLost d t l w attempt reason sending =>
    obtain ⟨pc, outside, after⟩ := (unreachable_outcome (m.popPending l t attempt) d t w attempt reason).dispatches
    exact advance_of_setDispatch found sending after (fun _ => .back rfl (by simp) outside)
  | @replied d t l w attempt response sending =>
    obtain ⟨pc, outside, after⟩ :=
      (handleReply_outcome (m.popPending l t attempt) d t w attempt response).dispatches
    exact advance_of_setDispatch found sending after (fun _ => .back rfl (by simp) outside)
  | abort sending => exact advance_of_setDispatch found sending rfl (fun _ => .aborted rfl)
  | finish closing =>
    exact advance_of_setDispatch found closing (finishDispatch_dispatches _ _ _ _) (fun _ => .finished rfl)
  | abandon closing => exact advance_of_setDispatch found closing rfl (fun _ => .aborted rfl)
  | skip | submit | accept | lose | handle | handler | stale | clear => exact ⟨dispatch, found, .same dispatch⟩

theorem Loop.keepsCall (loop : Loop m m') (found : m.dispatches[d]? = some dispatch) :
    m'.dispatches[d]? = some dispatch := by
  cases loop with
  | grant _ _ _ _ => exact found
  | spawn batch => exact spawn_keeps found
  | loops _ _ _ => exact found

/-- What a step does to call `d`. -/
theorem step_advance (taken : m.step a = some m') (found : m.dispatches[d]? = some dispatch) :
    ∃ dispatch', m'.dispatches[d]? = some dispatch' ∧ Advance m a d dispatch dispatch' := by
  refine step_preserves (I := fun n => ∃ dispatch', n.dispatches[d]? = some dispatch' ∧
    Advance m a d dispatch dispatch') taken (fun _ move => move.advance found) ?_
  rintro n n' loop ⟨dispatch', there, advance⟩
  exact ⟨dispatch', loop.keepsCall there, advance⟩

end Advance

/-! ### Connections -/

/-- What a move does to link `l`. -/
inductive Relink (m : Master) (a : Action) (l : LinkId) (link : Link) : Link → Prop
  | same : Relink m a l link link
  | lost : a = .connectionLost l ∨ a = .stopCloses l → Relink m a l link { link with lost := true }
  | ended : m.ending a = some (l, link) → Relink m a l link { link with lost := true, pc := .closing }
  | replying {message response : Message} {now : Time} {ws : WorkerManager} : a = .receive l message now →
      link.pc = .reading → handleRequest m.workers message now = .ok (response, ws) →
      Relink m a l link { link with pc := .replying message response }
  | installed {w : WorkerId} {pc : HandlerPc} (generation : Option Nat) : a = .replySent l →
      link.pc.registering = some w → pc = .reading ∨ pc = .replacing →
      Relink m a l link { link with workerId := some w, generation, pc }
  | replaced {k : LinkId} {other : Link} {w : WorkerId} : a = .replySent k → m.links[k]? = some other →
      other.pc.registering = some w → m.connections.get? w = some l → Relink m a l link { link with lost := true }
  | handler {pc : HandlerPc} : a.link? = some l → link.pc.registering = none → pc.quiet = true →
      pc.ended = link.pc.ended → Relink m a l link { link with pc }
  | written {d : DispatchId} {t : TaskId} {task : Task} {w : WorkerId} {depth : Nat} : a = .startDispatch d depth →
      m.dispatches[d]? = some ⟨t, .spawned⟩ → m.tasks.get? t = some task → task.status = .assigned →
      task.assignedWorkerId = some w → m.connections.get? w = some l → Relink m a l link
        { link with pending := link.pending.insert (attemptRequestId t task.attempt) d }
  | unsent {d : DispatchId} {t : TaskId} {task : Task} {depth : Nat} : a = .startDispatch d depth →
      m.dispatches[d]? = some ⟨t, .spawned⟩ → m.tasks.get? t = some task → task.status = .assigned →
      Relink m a l link { link with pending := link.pending.erase (attemptRequestId t task.attempt) }
  | popped {d : DispatchId} {t : TaskId} {w : WorkerId} {attempt : Nat} {drained : Bool} {reply : Reply} :
      a.dispatch? = some d → m.dispatches[d]? = some ⟨t, .sending l w attempt drained reply⟩ →
      (reply = .waiting → a = .abortDispatch d ∨ link.lost = true) →
      Relink m a l link { link with pending := link.pending.erase (attemptRequestId t attempt) }
  | closed {d : DispatchId} {t : TaskId} {k : LinkId} {w : WorkerId} {attempt : Nat} {response : Message}
      {pending : Dict String DispatchId} : a = .resumeDispatch d →
      m.dispatches[d]? = some ⟨t, .sending k w attempt true (.message response)⟩ →
      m.isCurrentAttempt t w attempt = true → m.workers.statusOf w = some .draining →
      m.connections.get? w = some l →
      pending = link.pending ∨ pending = link.pending.erase (attemptRequestId t attempt) →
      Relink m a l link { link with lost := true, pending }

section Relink
variable {m m' : Master} {a : Action} {l k : LinkId} {link other : Link}
variable {d : DispatchId} {t : TaskId} {w : WorkerId} {attempt : Nat} {response : Message}

theorem relink_of_modifyLink {f : Link → Link} (found : m.links[l]? = some link)
    (after : m'.links = (m.modifyLink k f).links) (own : k = l → Relink m a l link (f link)) :
    ∃ link', m'.links[l]? = some link' ∧ Relink m a l link link' := by
  rw [after, links_modifyLink, found]
  by_cases same : l = k
  · exact ⟨f link, by simp [same], own same.symm⟩
  · exact ⟨link, by simp [same], .same⟩

theorem Unreached.links (outcome : Unreached m d t w attempt response m') : m'.links = m.links := by
  cases outcome with
  | late _ | unknown _ _ => rfl
  | condemned _ _ => simp only [setDispatch, recordIfTerminal_links, condemnedWorker]

theorem finishDispatch_links (m : Master) (d : DispatchId) (t : TaskId) (response : Message) :
    (m.finishDispatch d t response).links = m.links := by
  simp only [finishDispatch, setDispatch, recordIfTerminal_links]

theorem closeIfDraining_links (m : Master) (d : DispatchId) (t : TaskId) (w : WorkerId) (attempt : Nat)
    (response : Message) : (m.closeIfDraining d t w attempt response).links = m.links ∨
      ∃ k, m.workers.statusOf w = some .draining ∧ m.connections.get? w = some k ∧
        (m.closeIfDraining d t w attempt response).links = (m.loseLink k).links := by
  unfold closeIfDraining
  split
  · rename_i draining
    split
    · rename_i k seated
      exact .inr ⟨k, draining, seated, rfl⟩
    · exact .inl (finishDispatch_links m d t response)
  · exact .inl (finishDispatch_links m d t response)

/-- A call that got its reply closes a link only if it settled a task of the
DRAINING worker in that seat. -/
theorem Settled.links (outcome : Settled m d t w attempt response m') : m'.links = m.links ∨
      ∃ k, m.isCurrentAttempt t w attempt = true ∧ m.workers.statusOf w = some .draining ∧
        m.connections.get? w = some k ∧ m'.links = (m.loseLink k).links := by
  cases outcome with
  | late _ | malformed | unknown _ _ _ _ => exact .inl rfl
  | settled current _ =>
    rcases closeIfDraining_links (m.finishedTask t w response) d t w attempt response with
      same | ⟨k, draining, seated, after⟩
    · exact .inl same
    · refine .inr ⟨k, current, ?_, seated, after⟩
      rw [Master.workers, finishedTask, Scheduler.statusOf_finished] at draining
      by_cases free : m.scheduler.workers.statusOf w = some .draining
      · exact free
      · rw [if_pos ⟨rfl, free⟩] at draining
        obtain ⟨_, _, impossible⟩ := Option.map_eq_some_iff.mp draining
        cases impossible

theorem relink_install (found : m.links[l]? = some link) (there : m.links[k]? = some other)
    (claims : other.pc.registering = some w) :
    ∃ link', (m.install k w).links[l]? = some link' ∧ Relink m (.replySent k) l link link' := by
  have own : ∀ pc, pc = .reading ∨ pc = .replacing → k = l → Relink m (.replySent k) l link
      { link with workerId := some w, generation := (m.workers.get? w).map Worker.generation, pc } := by
    rintro pc which rfl
    rw [found] at there
    cases there
    exact .installed _ rfl claims which
  simp only [install]
  split
  · rename_i previous seated
    split
    · rename_i same
      simp only [setHandler, links_modifyLink, found]
      by_cases mine : l = k
      · exact ⟨_, by simp [mine], own .reading (.inl rfl) mine.symm⟩
      · exact ⟨link, by simp [mine], .same⟩
    · rename_i apart
      simp only [setHandler, loseLink, links_modifyLink, found]
      by_cases mine : l = k
      · exact ⟨_, by simp [mine, Ne.symm apart], own .replacing (.inr rfl) mine.symm⟩
      · by_cases taken : l = previous
        · exact ⟨{ link with lost := true }, by simp [taken, apart], .replaced rfl there claims (taken ▸ seated)⟩
        · exact ⟨link, by simp [mine, taken], .same⟩
  · simp only [setHandler, links_modifyLink, found]
    by_cases mine : l = k
    · exact ⟨_, by simp [mine], own .reading (.inl rfl) mine.symm⟩
    · exact ⟨link, by simp [mine], .same⟩

/-- A call that got its reply pops its future and may close the connection. -/
theorem relink_replied (found : m.links[l]? = some link)
    (sending : m.dispatches[d]? = some ⟨t, .sending k w attempt true (.message response)⟩)
    (outcome : Settled (m.popPending k t attempt) d t w attempt response m') :
    ∃ link', m'.links[l]? = some link' ∧ Relink m (.resumeDispatch d) l link link' := by
  rcases outcome.links with after | ⟨j, current, draining, seated, after⟩
  · refine relink_of_modifyLink found after ?_
    rintro rfl
    exact .popped rfl sending (fun waiting => by cases waiting)
  · rw [after, loseLink, links_modifyLink, popPending, links_modifyLink, found]
    by_cases closes : l = j
    · subst closes
      by_cases mine : l = k
      · exact ⟨_, by simp [mine], .closed rfl sending current draining seated (.inr rfl)⟩
      · exact ⟨_, by simp [mine], .closed rfl sending current draining seated (.inl rfl)⟩
    · by_cases mine : l = k
      · subst mine
        exact ⟨_, by simp [closes], .popped rfl sending (fun waiting => by cases waiting)⟩
      · exact ⟨link, by simp [closes, mine], .same⟩

theorem Micro.relink {mid : Master} (move : Micro m a mid) (found : m.links[l]? = some link) :
    ∃ link', mid.links[l]? = some link' ∧ Relink m a l link link' := by
  cases move with
  | accept => exact ⟨link, by simp [List.getElem?_append_left (List.getElem?_eq_some_iff.mp found).1, found], .same⟩
  | lose why =>
    refine relink_of_modifyLink found rfl ?_
    rintro rfl
    exact .lost why
  | cleanup named there turn _ =>
    refine relink_of_modifyLink found (cleanup_links _ _ _) ?_
    rintro rfl
    rw [found] at there
    cases there
    exact .ended (ending_of_cleanup named found turn)
  | handle there reading _ handled =>
    refine relink_of_modifyLink found rfl ?_
    rintro rfl
    rw [found] at there
    cases there
    exact .replying rfl reading handled
  | install there claims => exact relink_install found there claims
  | handler named there none quiet ended =>
    refine relink_of_modifyLink found rfl ?_
    rintro rfl
    rw [found] at there
    cases there
    exact .handler named none quiet ended
  | @unreached d t task w _ spawned _ _ _ _ =>
    rw [(unreachable_outcome (m.startedTask t) d t w task.attempt "no connection").links]
    exact ⟨link, found, .same⟩
  | @unencodable d t task w k _ reason spawned there assigned _ _ _ =>
    have after :=
      (unreachable_outcome ((m.startedTask t).popPending k t task.attempt) d t w task.attempt reason).links
    exact relink_of_modifyLink found after (fun _ => .unsent rfl spawned there assigned)
  | overflow spawned there assigned _ _ _ =>
    exact relink_of_modifyLink found rfl (fun _ => .unsent rfl spawned there assigned)
  | write spawned there assigned owner seated =>
    refine relink_of_modifyLink found rfl ?_
    rintro rfl
    exact .written rfl spawned there assigned owner seated
  | @sendLost d t k other w attempt reply reason sending there lost =>
    have after := (unreachable_outcome (m.popPending k t attempt) d t w attempt reason).links
    refine relink_of_modifyLink found after ?_
    rintro rfl
    rw [found] at there
    cases there
    exact .popped rfl sending (fun _ => .inr lost)
  | @replyLost d t k w attempt reason sending =>
    have after := (unreachable_outcome (m.popPending k t attempt) d t w attempt reason).links
    refine relink_of_modifyLink found after ?_
    rintro rfl
    exact .popped rfl sending (fun waiting => by cases waiting)
  | replied sending => exact relink_replied found sending (handleReply_outcome _ _ _ _ _ _)
  | abort sending =>
    refine relink_of_modifyLink found rfl ?_
    rintro rfl
    exact .popped rfl sending (fun _ => .inl rfl)
  | finish _ =>
    rw [finishDispatch_links]
    exact ⟨link, found, .same⟩
  | skip | submit | resolve | startRaises | orphan | drained | abandon | stale | clear => exact ⟨link, found, .same⟩

theorem Loop.links (loop : Loop m m') : m'.links = m.links := by
  cases loop with
  | grant _ _ _ _ | spawn _ | loops _ _ _ => rfl

/-- What a step does to link `l`. -/
theorem step_relink (taken : m.step a = some m') (found : m.links[l]? = some link) :
    ∃ link', m'.links[l]? = some link' ∧ Relink m a l link link' := by
  refine step_preserves (I := fun n => ∃ link', n.links[l]? = some link' ∧ Relink m a l link link') taken
    (fun _ move => move.relink found) ?_
  rintro n n' loop ⟨link', there, relink⟩
  exact ⟨link', by rw [loop.links]; exact there, relink⟩

end Relink

theorem Micro.newLink {mid : Master} {l : LinkId} {link : Link} (move : Micro m a mid) (absent : m.links[l]? = none)
    (there : mid.links[l]? = some link) : link = Link.fresh := by
  have same : mid.links.length = m.links.length → link = Link.fresh := by
    intro unchanged
    rw [List.getElem?_eq_none_iff, ← unchanged, ← List.getElem?_eq_none_iff, there] at absent
    cases absent
  cases move with
  | accept =>
    rw [List.getElem?_append_right (List.getElem?_eq_none_iff.mp absent)] at there
    exact (List.mem_singleton.mp (List.mem_of_getElem? there))
  | cleanup _ _ _ _ => exact same (by rw [cleanup_links]; exact List.length_modify ..)
  | install _ _ =>
    refine same ?_
    simp only [Master.install]
    split
    · split <;> simp [setHandler, loseLink, modifyLink]
    · simp [setHandler, modifyLink]
  | unreached _ _ _ _ _ => exact same (by rw [(unreachable_outcome _ _ _ _ _ _).links]; rfl)
  | unencodable _ _ _ _ _ _ =>
    exact same (by rw [(unreachable_outcome _ _ _ _ _ _).links]; exact List.length_modify ..)
  | sendLost _ _ _ => exact same (by rw [(unreachable_outcome _ _ _ _ _ _).links]; exact List.length_modify ..)
  | replyLost _ => exact same (by rw [(unreachable_outcome _ _ _ _ _ _).links]; exact List.length_modify ..)
  | replied _ =>
    refine same ?_
    rcases (handleReply_outcome _ _ _ _ _ _).links with after | ⟨_, _, _, _, after⟩
    · rw [after]
      exact List.length_modify ..
    · rw [after]
      simp [loseLink, popPending, modifyLink]
  | finish _ => exact same (by rw [finishDispatch_links])
  | lose _ | handle _ _ _ _ | handler _ _ _ _ _ | overflow _ _ _ _ _ _ | write _ _ _ _ _ | abort _ =>
    exact same (List.length_modify ..)
  | skip | submit | resolve | startRaises | orphan | drained | abandon | stale | clear => exact same rfl

/-- Only a granted REGISTER makes a handler speak up for a worker. -/
theorem registering_replying {ws ws' : WorkerManager} {message : Message} {now : Time}
    (handled : handleRequest ws message now = .ok (response, ws'))
    (claims : (HandlerPc.replying message response).registering = some w) :
    grantedRegistration ws message now = some (w, ws') := by
  simp only [HandlerPc.registering] at claims
  split at claims
  · rename_i types
    split at claims
    · rename_i v named
      cases claims
      cases handleRequest_handled handled with
      | @registered v _ granted _ =>
        obtain ⟨_, _, argument, _⟩ := grantedRegistration_some granted
        rw [named] at argument
        cases argument
        exact granted
      | unchanged _ other => exact absurd types.2 other
      | beat _ _ _ other => exact absurd types.2 other
      | drained _ _ _ _ other => exact absurd types.2 other
    · cases claims
  · cases claims

/-- A handler comes to speak up for `w` only by a REGISTER granted to it. -/
theorem step_registering (taken : m.step a = some m') {l : LinkId} {link' : Link} (there : m'.links[l]? = some link')
    (claims : link'.pc.registering = some w) :
    (∃ link, m.links[l]? = some link ∧ link.pc.registering = some w) ∨
    ∃ message now ws, a = .receive l message now ∧ grantedRegistration m.workers message now = some (w, ws) := by
  obtain ⟨mid, move, loops⟩ := step_split taken
  have links : m'.links = mid.links := by
    clear taken there move
    induction loops with
    | refl => rfl
    | tail _ loop ih => rw [loop.links, ih]
  rw [links] at there
  rcases found : m.links[l]? with _ | link
  · rw [move.newLink found there] at claims
    cases claims
  · obtain ⟨link'', there', relink⟩ := move.relink found
    rw [there] at there'
    cases there'
    cases relink with
    | ended _ => cases claims
    | replying received _ handled => exact .inr ⟨_, _, _, received, registering_replying handled claims⟩
    | installed _ _ _ which =>
      rcases which with rfl | rfl <;> cases claims
    | handler _ _ quiet _ => simp [quiet_registering quiet] at claims
    | same | lost | replaced | written | unsent | popped | closed => exact .inl ⟨_, rfl, claims⟩

/-! ### The table of connections -/

/-- What a move does to the seat of worker `w`. -/
inductive Reseat (m : Master) (a : Action) (w : WorkerId) : Option LinkId → Prop
  | same : Reseat m a w (m.connections.get? w)
  | left {l : LinkId} {link : Link} : m.ending a = some (l, link) → link.workerId = some w →
      m.connections.get? w = some l → Reseat m a w none
  | taken {l : LinkId} {link : Link} : a = .replySent l → m.links[l]? = some link →
      link.pc.registering = some w → Reseat m a w (some l)
  | cleared : a = .stopClears → Reseat m a w none

theorem Micro.reseat {mid : Master} (move : Micro m a mid) (w : WorkerId) :
    Reseat m a w (mid.connections.get? w) := by
  have same : mid.connections = m.connections → Reseat m a w (mid.connections.get? w) := by
    intro unchanged
    rw [unchanged]
    exact .same
  cases move with
  | @cleanup _ l link named there turn _ =>
    rw [cleanup_connections]
    split
    · rename_i mine
      exact .left (ending_of_cleanup named there turn) mine.1 mine.2
    · exact .same
  | @install l link v there claims =>
    rw [install_connections, Dict.get?_insert]
    split
    · rename_i mine
      exact .taken rfl there (mine ▸ claims)
    · exact .same
  | unreached _ _ _ _ _ => exact same (unreachable_outcome _ _ _ _ _ _).sameSeats.connections
  | unencodable _ _ _ _ _ _ => exact same (unreachable_outcome _ _ _ _ _ _).sameSeats.connections
  | sendLost _ _ _ => exact same (unreachable_outcome _ _ _ _ _ _).sameSeats.connections
  | replyLost _ => exact same (unreachable_outcome _ _ _ _ _ _).sameSeats.connections
  | replied _ => exact same (handleReply_outcome _ _ _ _ _ _).sameSeats.connections
  | finish _ => exact same (sameSeats_finishDispatch _ _ _ _).connections
  | clear => exact .cleared rfl
  | skip | submit | accept | lose | resolve | handle | handler | startRaises => exact .same
  | orphan | overflow | write | drained | abort | abandon | stale => exact .same

theorem step_reseat (taken : m.step a = some m') (w : WorkerId) :
    Reseat m a w (m'.connections.get? w) := by
  refine step_preserves (I := fun n => Reseat m a w (n.connections.get? w)) taken (fun _ move => move.reseat w) ?_
  intro n n' loop reseat
  rw [loop.sameSeats.connections]
  exact reseat

/-! ### Task records -/

/-- What a move does to the record of task `t`. -/
inductive Retask (m : Master) (a : Action) (t : TaskId) (task : Task) : Task → Prop
  | same : Retask m a t task task
  | started {d : DispatchId} {depth : Nat} : a = .startDispatch d depth → m.dispatches[d]? = some ⟨t, .spawned⟩ →
      task.status = .assigned → Retask m a t task { task with status := .running }
  | finished {d : DispatchId} {l : LinkId} {w : WorkerId} {response : Message} (status : TaskStatus) :
      a = .resumeDispatch d →
      m.dispatches[d]? = some ⟨t, .sending l w task.attempt true (.message response)⟩ →
      task.assignedWorkerId = some w → status.terminal = true → Retask m a t task { task with status }
  | requeued {w : WorkerId} {caller : Option TaskId} : (w, caller) ∈ m.requeueCalls a →
      task.assignedWorkerId = some w → task.status.inFlight = true → Retask m a t task task.takenBack

section Retask
variable {m m' : Master} {a : Action} {d : DispatchId} {t u : TaskId} {task : Task} {w : WorkerId} {attempt : Nat}
  {response : Message}

/-- The branch of an unreachable worker takes back the tasks of the worker. -/
theorem Unreached.record (outcome : Unreached m d u w attempt response m') (found : m.tasks.get? t = some task) :
    m'.tasks.get? t = some task ∨ (m.isCurrentAttempt u w attempt = true ∧ task.assignedWorkerId = some w ∧
      task.status.inFlight = true ∧ m'.tasks.get? t = some task.takenBack) := by
  cases outcome with
  | late _ | unknown _ _ => exact .inl found
  | condemned current _ =>
    have after : Dict.get? (Master.tasks (((m.condemnedWorker w).recordIfTerminal u response).setDispatch d
        (.returned response))) t = some (task.requeued w) := by
      rw [Master.tasks, setDispatch, recordIfTerminal_scheduler]
      exact (get?_condemnedWorker m w t).trans (congrArg _ found)
    unfold Task.requeued at after
    split at after
    · rename_i held
      exact .inr ⟨current, held.1, held.2, after⟩
    · exact .inl after

theorem Settled.record (outcome : Settled m d u w attempt response m') (found : m.tasks.get? t = some task) :
    m'.tasks.get? t = some task ∨
      (u = t ∧ m.isCurrentAttempt u w attempt = true ∧
        ∃ status, status.terminal = true ∧ m'.tasks.get? t = some { task with status }) := by
  have named : ∀ status, (m.scheduler.setTaskStatus u status).tasks.get? t = some task ∨
      u = t ∧ (m.scheduler.setTaskStatus u status).tasks.get? t = some { task with status } := by
    intro status
    rw [Scheduler.get?_setTaskStatus]
    by_cases mine : t = u
    · exact .inr ⟨mine.symm, by rw [if_pos mine]; exact congrArg _ found⟩
    · exact .inl (by rw [if_neg mine]; exact found)
  cases outcome with
  | late _ | malformed => exact .inl found
  | unknown status current _ ended =>
    exact (named status).imp_right (fun mine => ⟨mine.1, current, status, ended, mine.2⟩)
  | settled current _ =>
    have after := named (if response.isSuccess then .completed else .failed)
    rw [← Scheduler.released_tasks _ w] at after
    rw [Master.tasks, closeIfDraining_scheduler]
    exact after.imp_right (fun mine => ⟨mine.1, current, _, by split <;> rfl, mine.2⟩)

/-- A call that starts makes its task RUNNING. -/
theorem started_record (depth : Nat) (found : m.tasks.get? t = some task)
    (spawned : m.dispatches[d]? = some ⟨u, .spawned⟩)
    (assigned : ∀ other, m.tasks.get? u = some other → other.status = .assigned) :
    ∃ task', (m.startedTask u).tasks.get? t = some task' ∧ Retask m (.startDispatch d depth) t task task' ∧
      task'.takenBack = task.takenBack ∧ task'.assignedWorkerId = task.assignedWorkerId ∧
      (task'.status.inFlight = true → task.status.inFlight = true) := by
  rw [get?_startedTask]
  by_cases mine : t = u
  · subst mine
    have waiting := assigned task found
    refine ⟨{ task with status := .running }, by simp [found], .started rfl spawned waiting, rfl, rfl, fun _ => ?_⟩
    rw [waiting]
    rfl
  · exact ⟨task, by rw [if_neg mine, found], .same, rfl, rfl, id⟩

theorem retask_unreached {n : Master} {depth : Nat} (found : m.tasks.get? t = some task)
    (spawned : m.dispatches[d]? = some ⟨u, .spawned⟩)
    (assigned : ∀ other, m.tasks.get? u = some other → other.status = .assigned)
    (started : n.tasks = (m.startedTask u).tasks) (called : (w, some u) ∈ m.requeueCalls (.startDispatch d depth))
    (outcome : Unreached n d u w attempt response m') :
    ∃ task', m'.tasks.get? t = some task' ∧ Retask m (.startDispatch d depth) t task task' := by
  obtain ⟨task', there, retask, same, owner, inFlight⟩ := started_record depth found spawned assigned
  rw [← started] at there
  rcases outcome.record there with unchanged | ⟨_, mine, held, taken⟩
  · exact ⟨task', unchanged, retask⟩
  · rw [same] at taken
    exact ⟨_, taken, .requeued called (owner.symm.trans mine) (inFlight held)⟩

theorem assigned_of_found (there : m.tasks.get? u = some task) (assigned : task.status = .assigned) :
    ∀ other, m.tasks.get? u = some other → other.status = .assigned := by
  intro other found
  cases there.symm.trans found
  exact assigned

theorem Micro.retask {mid : Master} (move : Micro m a mid) (found : m.tasks.get? t = some task) :
    ∃ task', mid.tasks.get? t = some task' ∧ Retask m a t task task' := by
  have same : mid.tasks = m.tasks → ∃ task', mid.tasks.get? t = some task' ∧ Retask m a t task task' := by
    intro unchanged
    rw [unchanged]
    exact ⟨task, found, .same⟩
  cases move with
  | @submit u taskType payload absent =>
    refine ⟨task, ?_, .same⟩
    rw [get?_submittedTask, if_neg]
    · exact found
    · rintro rfl
      rw [found] at absent
      cases absent
  | cleanup _ _ _ _ => exact same (cleanup_tasks _ _ _)
  | install _ _ => exact same (by rw [Master.tasks, install_scheduler])
  | orphan spawned there assigned _ | overflow spawned there assigned _ _ _ | write spawned there assigned _ _ =>
    obtain ⟨task', after, retask, _⟩ := started_record _ found spawned (assigned_of_found there assigned)
    exact ⟨task', after, retask⟩
  | unreached spawned there assigned owner absent =>
    exact retask_unreached found spawned (assigned_of_found there assigned) rfl
      (call_of_unsendable spawned there assigned owner (by simp [unsendable, absent]))
      (unreachable_outcome _ _ _ _ _ _)
  | @unencodable d u other w l _ reason spawned there assigned owner _ failure =>
    exact retask_unreached (n := (m.startedTask u).popPending l u other.attempt) found spawned
      (assigned_of_found there assigned) rfl
      (call_of_unsendable spawned there assigned owner (by simp [unsendable, refused, failure]))
      (unreachable_outcome _ _ _ _ _ _)
  | @sendLost d u l link w attempt reply reason sending _ _ =>
    have outcome := unreachable_outcome (m.popPending l u attempt) d u w attempt reason
    rcases outcome.record found with unchanged | ⟨current, owner, inFlight, taken⟩
    · exact ⟨task, unchanged, .same⟩
    · exact ⟨_, taken, .requeued (call_of_sendLost reason sending current) owner inFlight⟩
  | @replyLost d u l w attempt reason sending =>
    have outcome := unreachable_outcome (m.popPending l u attempt) d u w attempt reason
    rcases outcome.record found with unchanged | ⟨current, owner, inFlight, taken⟩
    · exact ⟨task, unchanged, .same⟩
    · exact ⟨_, taken, .requeued (call_of_replyLost sending current) owner inFlight⟩
  | @replied d u l w attempt response sending =>
    have outcome := handleReply_outcome (m.popPending l u attempt) d u w attempt response
    rcases outcome.record found with unchanged | ⟨rfl, current, status, ended, settled⟩
    · exact ⟨task, unchanged, .same⟩
    · obtain ⟨_, there, owner, rfl⟩ := isCurrentAttempt_iff.mp current
      obtain rfl := Option.some.inj (there.symm.trans found)
      exact ⟨_, settled, .finished status rfl sending owner ended⟩
  | finish _ => exact same (by rw [Master.tasks, finishDispatch_scheduler])
  | @stale i now _ =>
    have after : (m.condemnedStale now).tasks.get? t = some _ :=
      (Scheduler.get?_condemnStale m.scheduler heartbeatTimeout now t).trans (congrArg _ found)
    beta_reduce at after
    split at after
    · rename_i held
      obtain ⟨⟨w, stale, owner⟩, inFlight⟩ := held
      exact ⟨_, after, .requeued (List.mem_map.mpr ⟨w, stale, rfl⟩) owner inFlight⟩
    · exact ⟨task, after, .same⟩
  | skip | accept | lose | resolve | handle | handler | startRaises => exact same rfl
  | drained | abort | abandon | clear => exact same rfl

theorem loops_record (loops : ReflTransGen Loop m m') (found : m.tasks.get? t = some task)
    (taken : task.status ≠ .pending) : m'.tasks.get? t = some task := by
  induction loops with
  | refl => exact found
  | tail _ loop ih =>
    cases loop with
    | @grant u v other _ there pending _ _ =>
      have apart : t ≠ u := by
        rintro rfl
        rw [ih] at there
        cases there
        exact taken pending
      exact (Scheduler.get?_grant _ u t v).trans ((if_neg apart).trans ih)
    | spawn _ | loops _ _ _ => exact ih

/-- What a step does to the record of a task that is not PENDING, unless it is
taken back from its worker. -/
theorem step_retask (taken : m.step a = some m') (found : m.tasks.get? t = some task)
    (begun : task.status ≠ .pending)
    (kept : ∀ w caller, task.assignedWorkerId = some w → (w, caller) ∉ m.requeueCalls a) :
    ∃ task', m'.tasks.get? t = some task' ∧ Retask m a t task task' := by
  obtain ⟨mid, move, loops⟩ := step_split taken
  obtain ⟨task', there, retask⟩ := move.retask found
  refine ⟨task', loops_record loops there ?_, retask⟩
  cases retask with
  | same => exact begun
  | started _ _ _ => exact fun pending => by cases pending
  | finished status _ _ _ ended =>
    intro pending
    rw [show status = .pending from pending] at ended
    cases ended
  | requeued called owner _ => exact absurd called (kept _ _ owner)

end Retask
end Master
end DistributedCompute
