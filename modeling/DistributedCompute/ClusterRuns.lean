import DistributedCompute.Handshake

/-! Runs of the cluster. Every run of the cluster is one of the master, in which the
messages are those of workers. The invariants of the single connections are put together
here: the greeting, the stream of TASKs, and where the responses come from. -/
namespace DistributedCompute
open Py Relation Transition

variable {floatRepr : BitVec 64 → String}

namespace Master
variable {m m' : Master} {a : Action}

theorem links_of_move (move : Micro m a m') (other : a ≠ .accept) : m'.links.length = m.links.length := by
  have same (n : Master) (l : LinkId) (f : Link → Link) : (n.modifyLink l f).links.length = n.links.length :=
    List.length_modify ..
  cases move with
  | accept => exact absurd rfl other
  | cleanup => rw [cleanup_links, same]
  | install =>
    unfold install
    split
    · split
      · exact (same _ _ _).trans (same _ _ _)
      · exact (same _ _ _).trans ((same _ _ _).trans (same _ _ _))
    · exact (same _ _ _).trans (same _ _ _)
  | unreached => rw [(unreachable_outcome _ _ _ _ _ _).links]; rfl
  | unencodable => rw [(unreachable_outcome _ _ _ _ _ _).links]; exact same _ _ _
  | sendLost => rw [(unreachable_outcome _ _ _ _ _ _).links]; exact same _ _ _
  | replyLost => rw [(unreachable_outcome _ _ _ _ _ _).links]; exact same _ _ _
  | replied =>
    rcases (handleReply_outcome _ _ _ _ _ _).links with kept | ⟨k, _, _, _, closed⟩
    · rw [kept]
      exact same _ _ _
    · rw [closed]
      exact (same _ _ _).trans (same _ _ _)
  | finish => rw [finishDispatch_links]
  | lose | handle | handler | overflow | write | abort => exact same _ _ _
  | skip | submit | resolve | startRaises | orphan | drained | abandon | stale | clear => rfl

/-- Links come only from `accept`. -/
theorem links_of_step (taken : m.step a = some m') (other : a ≠ .accept) : m'.links.length = m.links.length :=
  step_preserves (I := fun n => n.links.length = m.links.length) taken (fun _ move => links_of_move move other)
    (fun _ _ loop kept => (congrArg List.length loop.links).trans kept)

end Master

namespace Cluster

/-! ### What a step can do -/

inductive Change (floatRepr : BitVec 64 → String) (c : Cluster) : Cluster → Prop
  | connects (runtime : Runtime) (workerId : WorkerId) (host : String) (port : Int) :
      Change floatRepr c ⟨{ c.master with links := c.master.links ++ [Link.fresh] },
        c.peers ++ [Peer.fresh runtime workerId host port]⟩
  | takes {a : Action} {m : Master} : a.internal = true → c.master.step a = some m →
      Change floatRepr c (c.write floatRepr m (m.written a))
  | delivers {l : LinkId} {p : Peer} {document : Json} {rest : List Json} {message : Message} {now : Time}
      {m : Master} : c.peers[l]? = some p → p.outbox = document :: rest → decodeMessage document = .ok message →
      c.master.step (.receive l message now) = some m →
      Change floatRepr c (write floatRepr { c with peers := c.peers.modify l (fun p => { p with outbox := rest }) } m
        (m.written (.receive l message now)))
  | refuses {l : LinkId} {p : Peer} {document : Json} {fault : DecodeFault} {a : Action} {c' : Cluster} :
      c.peers[l]? = some p → document ∈ p.outbox → decodeMessage document = .error fault →
      c.master.step a = some c'.master → Change floatRepr c c'
  | acts {l : LinkId} {p p' : Peer} : c.peers[l]? = some p → Peer.Does floatRepr p p' →
      Change floatRepr c { c with peers := c.peers.modify l (fun _ => p') }

variable {c c' : Cluster}

variable {l : LinkId} {m m' : Master} {a : Action} {p : Peer}

theorem change_of_deliver {now : Time} (taken : c.deliver floatRepr l now = some c') :
    Change floatRepr c c' := by
  unfold Cluster.deliver at taken
  split at taken
  · rename_i document rest said
    obtain ⟨p, here, outbox⟩ := Option.map_eq_some_iff.mp said
    have member : document ∈ p.outbox := outbox ▸ List.mem_cons_self
    dsimp only at taken
    split at taken
    · rename_i message decoded
      obtain ⟨m, stepped, rfl⟩ := Option.map_eq_some_iff.mp taken
      exact .delivers here outbox decoded stepped
    · obtain ⟨m, stepped, rfl⟩ := Option.map_eq_some_iff.mp taken
      exact .refuses here member ‹_› stepped
    · obtain ⟨m, stepped, rfl⟩ := Option.map_eq_some_iff.mp taken
      exact .refuses here member ‹_› stepped
  · cases taken

theorem change_of_step {a : ClusterAction} (taken : c.step floatRepr a = some c') : Change floatRepr c c' := by
  cases a with
  | connect runtime workerId host port =>
    cases taken
    exact .connects runtime workerId host port
  | master a =>
    simp only [step] at taken
    split at taken
    · obtain ⟨m, stepped, rfl⟩ := Option.map_eq_some_iff.mp taken
      exact .takes ‹_› stepped
    · cases taken
  | deliver l now => exact change_of_deliver taken
  | worker l a =>
    obtain ⟨p', acted, rfl⟩ := Option.map_eq_some_iff.mp taken
    obtain ⟨p, here, acted⟩ := Option.bind_eq_some_iff.mp acted
    exact .acts here (Peer.does_of_act acted)

/-- What one step of the cluster does to the master. -/
theorem Change.master (change : Change floatRepr c c') :
    c'.master = c.master ∨ ∃ a, c.master.step a = some c'.master := by
  cases change with
  | connects => exact .inr ⟨.accept, rfl⟩
  | takes _ stepped | delivers _ _ _ stepped => exact .inr ⟨_, stepped⟩
  | refuses _ _ _ stepped => exact .inr ⟨_, stepped⟩
  | acts => exact .inl rfl

/-- No condition on the steps: every run. -/
def anyTurn (_ : Cluster) (_ : ClusterAction) : Prop := True

instance (c : Cluster) (a : ClusterAction) : Decidable (anyTurn c a) := inferInstanceAs (Decidable True)

/-- A run of the cluster is a run of the master. -/
theorem master_of_run {ok : Cluster → ClusterAction → Prop} (run : Steps (step floatRepr) ok initial c) :
    Steps Master.step anyStep Master.initial c.master := by
  induction run with
  | refl => exact .refl
  | snoc _ _ taken ih =>
    rcases (change_of_step taken).master with same | ⟨a, stepped⟩
    · rw [same]
      exact ih
    · exact .snoc ih trivial stepped

/-! ### The connections -/

structure Joined (floatRepr : BitVec 64 → String) (c : Cluster) : Prop where
  paired : c.peers.length = c.master.links.length
  unsent : ∀ l, c.master.links.length ≤ l → c.master.sentOn l = []
  honest : ∀ {l : LinkId} {p : Peer}, c.peers[l]? = some p → p.Honest floatRepr
  heard : ∀ {l : LinkId} {p : Peer}, c.peers[l]? = some p → ∀ document ∈ p.inbox, ∃ message,
    decodeMessage document = .ok message ∧ (message.type = .task → message.task?.isSome = true)
  greeting : ∀ {l : LinkId} {link : Link} {p : Peer}, c.master.links[l]? = some link → c.peers[l]? = some p →
    Greeting c.master l link p
  stream : ∀ {l : LinkId} {link : Link} {p : Peer}, c.master.links[l]? = some link → c.peers[l]? = some p →
    p.Stream (c.master.sentTasks floatRepr l) link.lost

theorem joined_initial : Joined floatRepr initial :=
  ⟨rfl, fun _ _ => rfl, fun here => (nomatch here), fun here => (nomatch here), fun here => (nomatch here),
    fun here => (nomatch here)⟩

theorem peers_write (c : Cluster) (m : Master) (written : Option (LinkId × Message)) (l : LinkId) :
    (c.write floatRepr m written).peers[l]? =
      (c.peers[l]?).map (fun p => { p with inbox := p.inbox ++ arriving floatRepr m written l }) := by
  simp [write]

/-- A link after a step that accepts none was there before. -/
theorem link_before {link' : Link} (taken : m.step a = some m') (other : a ≠ .accept)
    (there' : m'.links[l]? = some link') : ∃ link, m.links[l]? = some link := by
  have bound : l < m.links.length := by
    rw [← Master.links_of_step taken other]
    exact (List.getElem?_eq_some_iff.mp there').1
  exact ⟨_, List.getElem?_eq_getElem bound⟩

/-- The history only grows. -/
theorem history_of_step (taken : m.step a = some m') :
    ∀ event ∈ m.history, event ∈ m'.history := by
  have grown : ∃ new, m'.history = m.history ++ new := by
    cases Master.step_writes taken with
    | nothing _ quiet | reply _ _ _ _ _ _ _ quiet =>
      obtain ⟨new, grown, _⟩ := quiet
      exact ⟨new, grown⟩
    | task _ _ _ _ after _ => exact ⟨_, by rw [after]; rfl⟩
  obtain ⟨new, grown⟩ := grown
  intro event member
  rw [grown]
  exact List.mem_append_left _ member

/-- Nothing is sent on a link that does not exist. -/
theorem sentOn_of_step (recorded : Succession.Recorded m.seats) (taken : m.step a = some m')
    (beyond : m.links.length ≤ l) : m'.sentOn l = m.sentOn l := by
  cases Master.step_writes taken with
  | nothing _ quiet | reply _ _ _ _ _ _ _ quiet => exact quiet.sentOn l
  | @task _ t task w k _ _ _ seat _ after _ =>
    have apart : k ≠ l := by
      rintro rfl
      have named := recorded.seated w k seat
      simp [Master.seats, Master.face, List.getElem?_eq_none beyond] at named
    have history : m'.history = m.history ++ [Event.sent t task.attempt k] := by rw [after]; rfl
    simp [Master.sentOn, history, List.filterMap_append, Event.sentOn, apart]

/-- The master takes a step. Before it writes, `popped` has the peers with what it has
read taken from their outboxes. -/
theorem Joined.stepped {popped : List Peer} (joined : Joined floatRepr c) (fenced : c.master.Fenced)
    (recorded : Succession.Recorded c.master.seats) (taken : c.master.step a = some m) (notAccept : a ≠ .accept)
    (identified : ∀ l message now, a = .receive l message now → message.requestId ≠ "")
    (length : popped.length = c.peers.length)
    (read : ∀ {k : LinkId} {q : Peer}, popped[k]? = some q → ∃ p outbox, c.peers[k]? = some p ∧
      (∀ document ∈ outbox, document ∈ p.outbox) ∧ q = { p with outbox })
    (greets : ∀ {k : LinkId} {link link' : Link} {q : Peer}, c.master.links[k]? = some link →
      m.links[k]? = some link' → popped[k]? = some q →
      Greeting m k link' { q with inbox := q.inbox ++ arriving floatRepr m (m.written a) k }) :
    Joined floatRepr (write floatRepr { c with peers := popped } m (m.written a)) where
  paired := by
    simp only [write, List.length_mapIdx, length]
    exact joined.paired.trans (Master.links_of_step taken notAccept).symm
  unsent := by
    intro k beyond
    rw [show (write floatRepr { c with peers := popped } m (m.written a)).master = m from rfl,
      Master.links_of_step taken notAccept] at beyond
    exact (sentOn_of_step recorded taken beyond).trans (joined.unsent k beyond)
  honest := by
    intro k p' here
    rw [peers_write] at here
    obtain ⟨q, there, rfl⟩ := Option.map_eq_some_iff.mp here
    obtain ⟨p, outbox, found, fewer, rfl⟩ := read there
    exact (joined.honest found).congr fewer rfl rfl (joined.honest found).executing
  heard := by
    intro k p' here document member
    rw [peers_write] at here
    obtain ⟨q, there, rfl⟩ := Option.map_eq_some_iff.mp here
    obtain ⟨p, outbox, found, _, rfl⟩ := read there
    rcases List.mem_append.mp member with old | new
    · exact joined.heard found document old
    · exact arriving_decoded taken identified document new
  greeting := by
    intro k link' p' there' here
    rw [peers_write] at here
    obtain ⟨q, there, rfl⟩ := Option.map_eq_some_iff.mp here
    obtain ⟨link, linked⟩ := link_before taken notAccept there'
    exact greets linked there' there
  stream := by
    intro k link' p' there' here
    rw [peers_write] at here
    obtain ⟨q, there, rfl⟩ := Option.map_eq_some_iff.mp here
    obtain ⟨p, outbox, found, _, rfl⟩ := read there
    obtain ⟨link, linked⟩ := link_before taken notAccept there'
    obtain ⟨new, sent, arrive⟩ := arriving_tasks (l := k) fenced taken there' identified
    have stream := joined.stream linked found
    have before : Peer.Stream { p with outbox } (c.master.sentTasks floatRepr k) link.lost :=
      ⟨stream.begun, stream.upcoming, stream.whole⟩
    have stays : link'.lost = false → link.lost = false := by
      obtain ⟨same, again, kept⟩ := Master.step_keeps_lost taken linked
      obtain rfl := Option.some.inj (there'.symm.trans again)
      intro open_
      by_contra lost
      rw [kept (Bool.eq_true_of_not_eq_false lost)] at open_
      cases open_
    exact sent ▸ before.hears stays arrive

/-- One peer changes, the others stay. -/
theorem peer_of_modify {peers : List Peer} {k : LinkId} {q : Peer} {f : Peer → Peer} (here : peers[l]? = some p)
    (found : (peers.modify l f)[k]? = some q) : (k = l ∧ q = f p) ∨ (k ≠ l ∧ peers[k]? = some q) := by
  rw [List.getElem?_modify] at found
  by_cases same : l = k
  · subst same
    simp only [here, if_true] at found
    exact .inl ⟨rfl, (Option.some.inj found).symm⟩
  · exact .inr ⟨Ne.symm same, by simpa [same] using found⟩

theorem Joined.takes (joined : Joined floatRepr c) (fenced : c.master.Fenced)
    (recorded : Succession.Recorded c.master.seats) (internal : a.internal = true)
    (taken : c.master.step a = some m) : Joined floatRepr (c.write floatRepr m (m.written a)) := by
  have notReceive : ∀ l message now, a ≠ .receive l message now := by
    rintro l message now rfl
    cases internal
  refine joined.stepped fenced recorded taken (fun same => by cases same; cases internal)
    (fun l message now received => absurd received (notReceive l message now)) rfl
    (fun here => ⟨_, _, here, fun _ member => member, rfl⟩) ?_
  intro k link link' p linked there' here
  exact (joined.greeting linked here).step recorded taken linked there' (history_of_step taken) (notReceive k)

theorem Joined.delivers {document : Json} {rest : List Json} {message : Message} {now : Time}
    (joined : Joined floatRepr c) (fenced : c.master.Fenced) (recorded : Succession.Recorded c.master.seats)
    (here : c.peers[l]? = some p) (said : p.outbox = document :: rest)
    (decoded : decodeMessage document = .ok message) (taken : c.master.step (.receive l message now) = some m) :
    Joined floatRepr (write floatRepr { c with peers := c.peers.modify l (fun p => { p with outbox := rest }) } m
      (m.written (.receive l message now))) := by
  refine joined.stepped fenced recorded taken (fun same => by cases same) ?_ (List.length_modify ..) ?_ ?_
  · intro _ _ _ received
    cases received
    exact requestId_of_decode decoded
  · intro k q found
    rcases peer_of_modify here found with ⟨rfl, rfl⟩ | ⟨_, same⟩
    · exact ⟨p, rest, here, fun _ member => said ▸ List.mem_cons_of_mem _ member, rfl⟩
    · exact ⟨q, q.outbox, same, fun _ member => member, rfl⟩
  · intro k link link' q linked there' found
    rcases peer_of_modify here found with ⟨rfl, rfl⟩ | ⟨apart, same⟩
    · exact (joined.greeting linked here).deliver taken linked there' said decoded
    · refine (joined.greeting linked same).step recorded taken linked there' (history_of_step taken) ?_
      intro _ _ received
      cases received
      exact apart rfl

theorem Joined.connects (joined : Joined floatRepr c) (runtime : Runtime) (workerId : WorkerId) (host : String)
    (port : Int) : Joined floatRepr ⟨{ c.master with links := c.master.links ++ [Link.fresh] },
      c.peers ++ [Peer.fresh runtime workerId host port]⟩ := by
  have peer : ∀ {l : Nat} {p : Peer}, (c.peers ++ [Peer.fresh runtime workerId host port])[l]? = some p →
      c.peers[l]? = some p ∨ l = c.peers.length ∧ p = Peer.fresh runtime workerId host port := by
    intro l p here
    rw [List.getElem?_append] at here
    split at here
    · exact .inl here
    · obtain ⟨index, found⟩ := List.getElem?_eq_some_iff.mp here
      simp only [List.length_singleton] at index
      refine .inr ⟨by omega, ?_⟩
      simpa [show l - c.peers.length = 0 by omega] using found.symm
  have link : ∀ {l : LinkId} {link : Link}, (c.master.links ++ [Link.fresh])[l]? = some link →
      l < c.peers.length → c.master.links[l]? = some link := by
    intro l link there bound
    rw [List.getElem?_append_left (joined.paired ▸ bound)] at there
    exact there
  have newest : ∀ {link : Link}, (c.master.links ++ [Link.fresh])[c.peers.length]? = some link →
      link = Link.fresh := by
    intro link there
    rw [joined.paired, List.getElem?_append_right (Nat.le_refl _), Nat.sub_self] at there
    exact (Option.some.inj there).symm
  refine ⟨?_, ?_, ?_, ?_, ?_, ?_⟩
  · simp [joined.paired]
  · intro l beyond
    simp only [List.length_append, List.length_singleton] at beyond
    exact joined.unsent l (by omega)
  · intro l p here
    rcases peer here with old | ⟨_, rfl⟩
    · exact joined.honest old
    · exact Peer.honest_fresh runtime workerId host port
  · intro l p here
    rcases peer here with old | ⟨_, rfl⟩
    · exact joined.heard old
    · exact fun _ member => (nomatch member)
  · intro l found p there here
    rcases peer here with old | ⟨rfl, rfl⟩
    · exact (joined.greeting (link there (List.getElem?_eq_some_iff.mp old).1) old).mono (fun _ noted => noted)
    · rw [newest there]
      exact greeting_fresh _ _ runtime workerId host port
  · intro l found p there here
    rcases peer here with old | ⟨rfl, rfl⟩
    · exact joined.stream (link there (List.getElem?_eq_some_iff.mp old).1) old
    · have none : c.master.sentTasks floatRepr c.peers.length = [] := by
        rw [Master.sentTasks, joined.unsent _ (Nat.le_of_eq joined.paired.symm)]
        rfl
      have fresh : Peer.Stream (Peer.fresh runtime workerId host port) [] found.lost :=
        ⟨List.prefix_rfl, fun _ => List.prefix_rfl, fun _ _ => rfl⟩
      rw [← none] at fresh
      exact fresh

theorem Joined.acts {p' : Peer} (joined : Joined floatRepr c) (here : c.peers[l]? = some p)
    (does : Peer.Does floatRepr p p') : Joined floatRepr { c with peers := c.peers.modify l (fun _ => p') } := by
  refine ⟨(List.length_modify ..).trans joined.paired, joined.unsent, ?_, ?_, ?_, ?_⟩
  · intro k q found
    rcases peer_of_modify here found with ⟨rfl, rfl⟩ | ⟨_, same⟩
    · exact (joined.honest here).does does
    · exact joined.honest same
  · intro k q found document member
    rcases peer_of_modify here found with ⟨rfl, rfl⟩ | ⟨_, same⟩
    · exact joined.heard here document (does.inbox document member)
    · exact joined.heard same document member
  · intro k link q there found
    rcases peer_of_modify here found with ⟨rfl, rfl⟩ | ⟨_, same⟩
    · exact (joined.greeting there here).does does
    · exact joined.greeting there same
  · intro k link q there found
    rcases peer_of_modify here found with ⟨rfl, rfl⟩ | ⟨_, same⟩
    · refine (joined.stream there here).does does ?_
      rintro document rest ⟨requestId, awaits⟩ arrived
      exact (joined.greeting there here).not_task awaits arrived
    · exact joined.stream there same

theorem Joined.change (joined : Joined floatRepr c) (fenced : c.master.Fenced)
    (recorded : Succession.Recorded c.master.seats) (change : Change floatRepr c c') : Joined floatRepr c' := by
  cases change with
  | connects runtime workerId host port => exact joined.connects runtime workerId host port
  | takes internal taken => exact joined.takes fenced recorded internal taken
  | delivers here said decoded taken => exact joined.delivers fenced recorded here said decoded taken
  | refuses here member refused _ =>
    obtain ⟨message, decoded, _⟩ := (joined.honest here).outbox _ member
    cases refused.symm.trans decoded
  | acts here does => exact joined.acts here does

theorem joined_of_run {ok : Cluster → ClusterAction → Prop} (run : Steps (step floatRepr) ok initial c) :
    Joined floatRepr c :=
  run.invariant_with (I := Joined floatRepr)
    (fun _ before => And.intro (Master.fenced_of_run (master_of_run before))
      (Master.recorded_of_run (master_of_run before)))
    joined_initial
    (fun _ _ _ known joined _ taken => joined.change known.1 known.2 (change_of_step taken))

end Cluster
end DistributedCompute
