import Mathlib.Logic.Relation
import Mathlib.Logic.Function.Basic
import Mathlib.Data.List.Basic

/-! Fenced attempts at one unit of work. The work is granted to an owner, each
grant under the next attempt number; a holder claims the granted attempt, tells
the owner, and later settles the work with an outcome, which it publishes in a
separate move. The grant can be taken back at any time, and then a holder of
that attempt no longer counts. A bounded number of grants is made.

`lossy` allows the two moves that leave finished work unpublished. -/
namespace Lease
open Relation
variable {ω δ μ : Type*}

inductive Status
  | waiting
  | granted
  | running
  | succeeded
  | failed
  deriving DecidableEq, Repr

def Status.held : Status → Bool
  | .granted | .running => true
  | _ => false

def Status.final : Status → Bool
  | .succeeded | .failed => true
  | _ => false

/-- A holder works on the attempt it claimed, or has settled the work and not
yet published the outcome. -/
inductive Holder (ω μ : Type*)
  | working (owner : ω) (attempt : Nat)
  | settled (outcome : μ)

structure State (ω δ μ : Type*) where
  status : Status
  owner : Option ω
  attempt : Nat
  holders : δ → Option (Holder ω μ)
  sent : List Nat
  published : List μ

def State.initial : State ω δ μ := ⟨.waiting, none, 0, fun _ => none, [], []⟩

/-- How many grants are made, which outcomes are successes, and which attempt
an outcome speaks for. -/
structure Rules (μ : Type*) where
  limit : Nat
  limit_pos : 0 < limit
  good : μ → Bool
  belongs : μ → Nat → Prop

variable {rules : Rules μ} {lossy : Prop} {s s' : State ω δ μ}

/-- The outcome agrees with how the work ended. -/
def State.Outcome (rules : Rules μ) (s : State ω δ μ) (outcome : μ) : Prop :=
  s.status.final = true ∧ rules.belongs outcome s.attempt ∧
    (s.status = .succeeded ↔ rules.good outcome = true)

structure Sound (rules : Rules μ) (s : State ω δ μ) : Prop where
  waiting : s.status = .waiting → s.owner = none ∧ s.attempt < rules.limit
  started : s.status ≠ .waiting → 1 ≤ s.attempt ∧ s.attempt ≤ rules.limit
  working : ∀ d w a, s.holders d = some (.working w a) → a ≤ s.attempt ∧
    (a = s.attempt → s.status ≠ .granted ∧ (s.owner = none ∨ s.status = .running ∧ s.owner = some w))
  alone : ∀ d e v w, s.holders d = some (.working v s.attempt) →
    s.holders e = some (.working w s.attempt) → d = e
  settled : ∀ d outcome, s.holders d = some (.settled outcome) →
    s.Outcome rules outcome ∧ s.published = [] ∧
      ∀ e other, s.holders e = some (.settled other) → e = d
  published : ∀ outcome ∈ s.published, s.Outcome rules outcome
  once : s.published.length ≤ 1
  increasing : s.sent.Pairwise (· < ·)
  sent : ∀ a ∈ s.sent, 1 ≤ a ∧ a ≤ s.attempt ∧ (s.status = .granted → a < s.attempt)

theorem sound_initial (rules : Rules μ) : Sound rules (State.initial : State ω δ μ) where
  waiting := fun _ => ⟨rfl, rules.limit_pos⟩
  started := fun other => absurd rfl other
  working := fun _ _ _ holder => nomatch holder
  alone := fun _ _ _ _ holder => nomatch holder
  settled := fun _ _ holder => nomatch holder
  published := fun _ member => nomatch member
  once := Nat.zero_le 1
  increasing := .nil
  sent := fun _ member => nomatch member

namespace Sound

/-- Before the end nothing is settled and nothing is published. -/
theorem open_of_not_final (sound : Sound rules s) (ongoing : s.status.final = false) :
    (∀ d outcome, s.holders d ≠ some (.settled outcome)) ∧ s.published = [] := by
  constructor
  · intro d outcome holder
    have ended := (sound.settled d outcome holder).1.1
    rw [ongoing] at ended
    cases ended
  · rcases none : s.published with _ | ⟨outcome, rest⟩
    · rfl
    · have ended := (sound.published outcome (by simp [none])).1
      rw [ongoing] at ended
      cases ended

/-- The current holder of the current attempt works on running work. -/
theorem running_of_current (sound : Sound rules s) {d : δ} {w : ω}
    (holder : s.holders d = some (.working w s.attempt)) (owner : s.owner = some w) :
    s.status = .running := by
  obtain ⟨_, current⟩ := sound.working d w s.attempt holder
  rcases (current rfl).2 with free | ⟨running, _⟩
  · rw [owner] at free
    cases free
  · exact running

theorem grant (sound : Sound rules s) (w : ω) (waiting : s.status = .waiting) :
    Sound rules { s with status := .granted, owner := some w, attempt := s.attempt + 1 } := by
  obtain ⟨_, early⟩ := sound.waiting waiting
  obtain ⟨unsettled, unpublished⟩ := sound.open_of_not_final (by rw [waiting]; rfl)
  refine ⟨nofun, fun _ => ⟨by simp, early⟩, ?_, ?_, ?_, ?_, sound.once, sound.increasing, ?_⟩
  · intro d v a holder
    have past := (sound.working d v a holder).1
    exact ⟨by simp only; omega, fun same => by simp only at same; omega⟩
  · intro d e v u holder
    have past := (sound.working d v _ holder).1
    simp only at past
    omega
  · intro d outcome holder
    exact absurd holder (unsettled d outcome)
  · simp [unpublished]
  · intro a member
    obtain ⟨first, past, _⟩ := sound.sent a member
    exact ⟨first, by simp only; omega, fun _ => by simp only; omega⟩

theorem takeBack (sound : Sound rules s) (held : s.status.held = true) :
    Sound rules { s with
      status := if rules.limit ≤ s.attempt then .failed else .waiting
      owner := none } := by
  obtain ⟨first, within⟩ := sound.started (by rintro waiting; rw [waiting] at held; cases held)
  obtain ⟨unsettled, unpublished⟩ := sound.open_of_not_final
    (by cases h : s.status <;> simp_all [Status.held, Status.final])
  refine ⟨?_, fun _ => ⟨first, within⟩, ?_, sound.alone, ?_, ?_, sound.once, sound.increasing, ?_⟩
  · intro waiting
    refine ⟨rfl, ?_⟩
    simp only at waiting ⊢
    split at waiting
    · cases waiting
    · omega
  · intro d v a holder
    refine ⟨(sound.working d v a holder).1, fun _ => ⟨?_, .inl rfl⟩⟩
    simp only
    split <;> simp
  · intro d outcome holder
    exact absurd holder (unsettled d outcome)
  · simp [unpublished]
  · intro a member
    obtain ⟨low, high, _⟩ := sound.sent a member
    refine ⟨low, high, fun granted => ?_⟩
    simp only at granted
    split at granted <;> cases granted

/-- Work that ends while `d` is the holder of the current attempt leaves no
other holder of it. -/
theorem others_past (sound : Sound rules s) {d e : δ} {v w : ω} {a : Nat}
    (holder : s.holders d = some (.working w s.attempt)) (other : s.holders e = some (.working v a))
    (apart : e ≠ d) : a < s.attempt := by
  obtain ⟨past, _⟩ := sound.working e v a other
  by_contra late
  have current : a = s.attempt := by omega
  subst current
  exact apart (sound.alone e d v w other holder)

end Sound

/-! ### The moves -/

variable [DecidableEq δ]

def State.setHolder (s : State ω δ μ) (d : δ) (holder : Option (Holder ω μ)) : State ω δ μ :=
  { s with holders := Function.update s.holders d holder }

inductive Move (rules : Rules μ) (lossy : Prop) : State ω δ μ → State ω δ μ → Prop
  | grant {s : State ω δ μ} (w : ω) : s.status = .waiting →
      Move rules lossy s { s with status := .granted, owner := some w, attempt := s.attempt + 1 }
  | claim {s : State ω δ μ} {d : δ} {w : ω} (tells : Bool) : s.status = .granted → s.owner = some w →
      s.holders d = none →
      Move rules lossy s (State.setHolder { s with
        status := .running
        sent := if tells then s.sent ++ [s.attempt] else s.sent } d (some (.working w s.attempt)))
  | takeBack {s : State ω δ μ} : s.status.held = true → (s.attempt < rules.limit ∨ lossy) →
      Move rules lossy s { s with
        status := if rules.limit ≤ s.attempt then .failed else .waiting
        owner := none }
  | giveUp {s : State ω δ μ} {d : δ} {w : ω} {outcome : μ} :
      s.holders d = some (.working w s.attempt) → s.owner = some w → rules.limit ≤ s.attempt →
      rules.belongs outcome s.attempt → rules.good outcome = false →
      Move rules lossy s (State.setHolder { s with
        status := .failed
        owner := none
        published := s.published ++ [outcome] } d none)
  | settle {s : State ω δ μ} {d : δ} {w : ω} {outcome : μ} :
      s.holders d = some (.working w s.attempt) → s.owner = some w →
      rules.belongs outcome s.attempt →
      Move rules lossy s (State.setHolder { s with
        status := if rules.good outcome then .succeeded else .failed } d (some (.settled outcome)))
  | publish {s : State ω δ μ} {d : δ} {outcome : μ} : s.holders d = some (.settled outcome) →
      Move rules lossy s (State.setHolder { s with published := s.published ++ [outcome] } d none)
  | drop {s : State ω δ μ} (d : δ) : ((∃ w a, s.holders d = some (.working w a)) ∨ lossy) →
      Move rules lossy s (s.setHolder d none)

theorem Move.mono {weaker : Prop} (imp : lossy → weaker) (move : Move rules lossy s s') :
    Move rules weaker s s' := by
  cases move with
  | grant w waiting => exact .grant w waiting
  | claim tells granted owner free => exact .claim tells granted owner free
  | takeBack held early => exact .takeBack held (early.imp_right imp)
  | giveUp holder owner last belongs bad => exact .giveUp holder owner last belongs bad
  | settle holder owner belongs => exact .settle holder owner belongs
  | publish holder => exact .publish holder
  | drop d idle => exact .drop d (idle.imp_right imp)

namespace Sound
variable {d : δ} {w : ω} {outcome : μ}

theorem claim (sound : Sound rules s) (tells : Bool) (granted : s.status = .granted) (owner : s.owner = some w) :
    Sound rules (State.setHolder { s with
      status := .running
      sent := if tells then s.sent ++ [s.attempt] else s.sent } d (some (.working w s.attempt))) := by
  obtain ⟨first, within⟩ := sound.started (by simp [granted])
  obtain ⟨unsettled, unpublished⟩ := sound.open_of_not_final (by rw [granted]; rfl)
  -- a granted attempt has no holder yet
  have fresh : ∀ e v, s.holders e ≠ some (.working v s.attempt) := fun e v holder =>
    ((sound.working e v _ holder).2 rfl).1 granted
  refine ⟨nofun, fun _ => ⟨first, within⟩, ?_, ?_, ?_, ?_, sound.once, ?_, ?_⟩
  · intro e v a holder
    simp only [State.setHolder, Function.update_apply] at holder
    split at holder
    · cases holder
      exact ⟨Nat.le_refl _, fun _ => ⟨by simp [State.setHolder], .inr ⟨rfl, owner⟩⟩⟩
    · refine ⟨(sound.working e v a holder).1, fun current => ?_⟩
      have same : a = s.attempt := current
      exact absurd (same ▸ holder) (fresh e v)
  · intro e f u v holder other
    simp only [State.setHolder, Function.update_apply] at holder other
    split at holder
    · split at other
      · rename_i one two
        rw [one, two]
      · exact absurd other (fresh f v)
    · exact absurd holder (fresh e u)
  · intro e outcome holder
    simp only [State.setHolder, Function.update_apply] at holder
    split at holder
    · cases holder
    · exact absurd holder (unsettled e outcome)
  · simp [State.setHolder, unpublished]
  · simp only [State.setHolder]
    split
    · rw [List.pairwise_append]
      refine ⟨sound.increasing, List.pairwise_singleton _ _, ?_⟩
      intro a member b last
      rw [List.mem_singleton.mp last]
      exact (sound.sent a member).2.2 granted
    · exact sound.increasing
  · intro a member
    refine ⟨?_, ?_, fun same => nomatch same⟩ <;> simp only [State.setHolder] at member <;>
      split at member
    · rcases List.mem_append.mp member with old | new
      · exact (sound.sent a old).1
      · rw [List.mem_singleton.mp new]
        exact first
    · exact (sound.sent a member).1
    · rcases List.mem_append.mp member with old | new
      · exact (sound.sent a old).2.1
      · exact Nat.le_of_eq (List.mem_singleton.mp new)
    · exact (sound.sent a member).2.1

theorem giveUp (sound : Sound rules s) (holder : s.holders d = some (.working w s.attempt)) (owner : s.owner = some w)
    (belongs : rules.belongs outcome s.attempt) (bad : rules.good outcome = false) :
    Sound rules (State.setHolder { s with
      status := .failed
      owner := none
      published := s.published ++ [outcome] } d none) := by
  have running := sound.running_of_current holder owner
  obtain ⟨first, within⟩ := sound.started (by simp [running])
  obtain ⟨unsettled, unpublished⟩ := sound.open_of_not_final (by rw [running]; rfl)
  refine ⟨nofun, fun _ => ⟨first, within⟩, ?_, ?_, ?_, ?_, ?_, sound.increasing, ?_⟩
  · intro e v a other
    simp only [State.setHolder, Function.update_apply] at other
    split at other
    · cases other
    · exact ⟨(sound.working e v a other).1, fun _ => ⟨nofun, .inl rfl⟩⟩
  · intro e f u v one two
    simp only [State.setHolder, Function.update_apply] at one two
    split at one
    · cases one
    · split at two
      · cases two
      · exact sound.alone e f u v one two
  · intro e other settled
    simp only [State.setHolder, Function.update_apply] at settled
    split at settled
    · cases settled
    · exact absurd settled (unsettled e other)
  · intro other member
    simp only [State.setHolder, unpublished, List.nil_append, List.mem_singleton] at member
    subst member
    exact ⟨rfl, belongs, by simp [State.setHolder, bad]⟩
  · simp [State.setHolder, unpublished]
  · intro a member
    obtain ⟨low, high, _⟩ := sound.sent a member
    exact ⟨low, high, nofun⟩

theorem settle (sound : Sound rules s) (holder : s.holders d = some (.working w s.attempt)) (owner : s.owner = some w)
    (belongs : rules.belongs outcome s.attempt) :
    Sound rules (State.setHolder { s with
      status := if rules.good outcome then .succeeded else .failed } d (some (.settled outcome))) := by
  have running := sound.running_of_current holder owner
  obtain ⟨first, within⟩ := sound.started (by simp [running])
  obtain ⟨unsettled, unpublished⟩ := sound.open_of_not_final (by rw [running]; rfl)
  refine ⟨?_, fun _ => ⟨first, within⟩, ?_, ?_, ?_, ?_, sound.once, sound.increasing, ?_⟩
  · intro waiting
    simp only [State.setHolder] at waiting
    split at waiting <;> cases waiting
  · intro e v a other
    simp only [State.setHolder, Function.update_apply] at other
    split at other
    · cases other
    · rename_i apart
      have past := sound.others_past holder other apart
      exact ⟨Nat.le_of_lt past, fun current => absurd current (Nat.ne_of_lt past)⟩
  · intro e f u v one
    simp only [State.setHolder, Function.update_apply] at one
    split at one
    · cases one
    · rename_i apart
      exact absurd (sound.others_past holder one apart) (Nat.lt_irrefl _)
  · intro e other settled
    simp only [State.setHolder, Function.update_apply] at settled
    split at settled
    · rename_i same
      cases settled
      refine ⟨⟨?_, belongs, ?_⟩, unpublished, ?_⟩
      · simp only [State.setHolder]
        split <;> rfl
      · simp only [State.setHolder]
        split <;> simp_all
      · intro f next again
        simp only [State.setHolder, Function.update_apply] at again
        split at again
        · rename_i alike
          rw [alike, same]
        · exact absurd again (unsettled f next)
    · exact absurd settled (unsettled e other)
  · simp [State.setHolder, unpublished]
  · intro a member
    obtain ⟨low, high, _⟩ := sound.sent a member
    refine ⟨low, high, fun granted => ?_⟩
    simp only [State.setHolder] at granted
    split at granted <;> cases granted

/-- Clearing a holder keeps what the remaining holders satisfy. -/
theorem drop (sound : Sound rules s) (d : δ) : Sound rules (s.setHolder d none) := by
  have kept : ∀ {e holder}, (s.setHolder d none).holders e = some holder → s.holders e = some holder := by
    intro e holder present
    simp only [State.setHolder, Function.update_apply] at present
    split at present
    · cases present
    · exact present
  refine ⟨sound.waiting, sound.started, ?_, ?_, ?_, sound.published, sound.once, sound.increasing,
    sound.sent⟩
  · intro e v a holder
    exact sound.working e v a (kept holder)
  · intro e f u v one two
    exact sound.alone e f u v (kept one) (kept two)
  · intro e outcome holder
    obtain ⟨agrees, unpublished, unique⟩ := sound.settled e outcome (kept holder)
    exact ⟨agrees, unpublished, fun f other again => unique f other (kept again)⟩

theorem publish (sound : Sound rules s) (holder : s.holders d = some (.settled outcome)) :
    Sound rules (State.setHolder { s with published := s.published ++ [outcome] } d none) := by
  obtain ⟨agrees, unpublished, unique⟩ := sound.settled d outcome holder
  have cleared := sound.drop d
  refine ⟨sound.waiting, sound.started, cleared.working, cleared.alone, ?_, ?_, ?_, sound.increasing,
    sound.sent⟩
  · intro e other again
    simp only [State.setHolder, Function.update_apply] at again
    split at again
    · cases again
    · rename_i apart
      exact absurd (unique e other again) apart
  · intro other member
    simp only [State.setHolder, unpublished, List.nil_append, List.mem_singleton] at member
    subst member
    exact agrees
  · simp [State.setHolder, unpublished]

theorem step (sound : Sound rules s) (move : Move rules lossy s s') : Sound rules s' := by
  cases move with
  | grant w waiting => exact sound.grant w waiting
  | claim tells granted owner _ => exact sound.claim tells granted owner
  | takeBack held _ => exact sound.takeBack held
  | giveUp holder owner _ belongs bad => exact sound.giveUp holder owner belongs bad
  | settle holder owner belongs => exact sound.settle holder owner belongs
  | publish holder => exact sound.publish holder
  | drop d _ => exact sound.drop d

theorem run (sound : Sound rules s) (moves : ReflTransGen (Move rules lossy) s s') : Sound rules s' := by
  induction moves with
  | refl => exact sound
  | tail _ move ih => exact ih.step move

end Sound

variable {d : δ} {outcome : μ}

/-- The current holder gives the work back: for another attempt, or as failed
with an outcome it publishes at once. -/
theorem Sound.giveBack (sound : Sound rules s) {w : ω} (holder : s.holders d = some (.working w s.attempt))
    (owner : s.owner = some w) (belongs : rules.belongs outcome s.attempt) (bad : rules.good outcome = false) :
    ReflTransGen (Move rules lossy) s (State.setHolder { s with
      status := if rules.limit ≤ s.attempt then .failed else .waiting
      owner := none
      published := if rules.limit ≤ s.attempt then s.published ++ [outcome] else s.published } d none) := by
  by_cases last : rules.limit ≤ s.attempt
  · simp only [last, if_true]
    exact .single (.giveUp holder owner last belongs bad)
  · have running := sound.running_of_current holder owner
    have back : Move rules lossy s { s with
        status := if rules.limit ≤ s.attempt then .failed else .waiting
        owner := none } := .takeBack (by rw [running]; rfl) (.inl (Nat.lt_of_not_le last))
    simp only [last, if_false] at back ⊢
    exact (ReflTransGen.single back).tail (.drop d (.inl ⟨w, s.attempt, holder⟩))

/-! ### Once the work has ended -/

/-- What no move changes after the end. -/
def State.SameEnd (s s' : State ω δ μ) : Prop :=
  s'.status = s.status ∧ s'.owner = s.owner ∧ s'.attempt = s.attempt ∧ s'.sent = s.sent

theorem Sound.end_kept (sound : Sound rules s) (move : Move rules lossy s s')
    (ended : s.status.final = true) : s.SameEnd s' := by
  have notRunning : s.status ≠ .running := by rintro running; rw [running] at ended; cases ended
  cases move with
  | grant w waiting => rw [waiting] at ended; cases ended
  | claim _ granted _ _ => rw [granted] at ended; cases ended
  | takeBack held _ => cases h : s.status <;> simp_all [Status.held, Status.final]
  | giveUp holder owner _ _ _ => exact absurd (sound.running_of_current holder owner) notRunning
  | settle holder owner _ => exact absurd (sound.running_of_current holder owner) notRunning
  | publish _ => exact ⟨rfl, rfl, rfl, rfl⟩
  | drop d _ => exact ⟨rfl, rfl, rfl, rfl⟩

theorem Sound.end_kept_run (sound : Sound rules s) (moves : ReflTransGen (Move rules lossy) s s')
    (ended : s.status.final = true) : s.SameEnd s' := by
  induction moves with
  | refl => exact ⟨rfl, rfl, rfl, rfl⟩
  | tail before move ih =>
    obtain ⟨status, owner, attempt, sent⟩ := ih
    obtain ⟨status', owner', attempt', sent'⟩ :=
      (sound.run before).end_kept move (by rw [status]; exact ended)
    exact ⟨status'.trans status, owner'.trans owner, attempt'.trans attempt, sent'.trans sent⟩

/-- Finished work is published, or a holder is still about to publish it. -/
def State.Covered (s : State ω δ μ) : Prop :=
  s.status.final = true →
    s.published ≠ [] ∨ ∃ d outcome, s.holders d = some (.settled outcome)

theorem State.Covered.step (covered : s.Covered) (move : Move rules False s s') : s'.Covered := by
  cases move with
  | grant w _ => exact nofun
  | claim _ _ _ _ => exact nofun
  | takeBack held early =>
    intro ended
    rcases early with early | ⟨⟨⟩⟩
    simp only [Nat.not_le.mpr early, if_false] at ended
    cases ended
  | giveUp _ _ _ _ _ => exact fun _ => .inl (by simp [State.setHolder])
  | @settle d w outcome _ _ _ => exact fun _ => .inr ⟨d, outcome, by simp [State.setHolder]⟩
  | publish _ => exact fun _ => .inl (by simp [State.setHolder])
  | drop d idle =>
    intro ended
    rcases idle with ⟨w, a, working⟩ | ⟨⟨⟩⟩
    rcases covered ended with published | ⟨e, outcome, settled⟩
    · exact .inl published
    · refine .inr ⟨e, outcome, ?_⟩
      have apart : e ≠ d := by rintro rfl; rw [working] at settled; cases settled
      simp only [State.setHolder, Function.update_of_ne apart]
      exact settled

theorem State.Covered.run (covered : s.Covered) (moves : ReflTransGen (Move rules False) s s') :
    s'.Covered := by
  induction moves with
  | refl => exact covered
  | tail _ move ih => exact ih.step move

/-- Holder `d` has settled the work with this outcome, or it has been published. -/
def State.Answered (s : State ω δ μ) (d : δ) (outcome : μ) : Prop :=
  s.holders d = some (.settled outcome) ∨ s.published = [outcome]

omit [DecidableEq δ] in
theorem Sound.answered_final (sound : Sound rules s) (answered : s.Answered d outcome) :
    s.status.final = true := by
  rcases answered with settled | published
  · exact (sound.settled d outcome settled).1.1
  · exact (sound.published outcome (by simp [published])).1

theorem Sound.answered_step (sound : Sound rules s) (answered : s.Answered d outcome) (move : Move rules False s s') :
    s'.Answered d outcome := by
  have ended := sound.answered_final answered
  have notRunning : s.status ≠ .running := by rintro running; rw [running] at ended; cases ended
  cases move with
  | grant w waiting => rw [waiting] at ended; cases ended
  | claim _ granted _ _ => rw [granted] at ended; cases ended
  | takeBack held _ => cases h : s.status <;> simp_all [Status.held, Status.final]
  | giveUp holder owner _ _ _ => exact absurd (sound.running_of_current holder owner) notRunning
  | settle holder owner _ => exact absurd (sound.running_of_current holder owner) notRunning
  | @publish e other holder =>
    obtain ⟨_, unpublished, only⟩ := sound.settled e other holder
    rcases answered with settled | published
    · obtain rfl := only d outcome settled
      rw [settled] at holder
      cases holder
      exact .inr (by simp [State.setHolder, unpublished])
    · simp [published] at unpublished
  | drop e idle =>
    rcases idle with ⟨w, a, working⟩ | ⟨⟨⟩⟩
    rcases answered with settled | published
    · have apart : d ≠ e := by rintro rfl; rw [working] at settled; cases settled
      refine .inl ?_
      simp only [State.setHolder, Function.update_of_ne apart]
      exact settled
    · exact .inr published

theorem Sound.answered_run (sound : Sound rules s) (answered : s.Answered d outcome)
    (moves : ReflTransGen (Move rules False) s s') : s'.Answered d outcome := by
  induction moves with
  | refl => exact answered
  | tail before move ih => exact (sound.run before).answered_step ih move

end Lease
