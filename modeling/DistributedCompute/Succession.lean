import Mathlib.Logic.Relation
import Mathlib.Logic.Function.Basic
import Mathlib.Data.List.Basic

/-! Links that succeed each other in the seat of a name. A link first registers
for a name, which raises the generation of that name, and takes the seat in a
later move; a link that leaves gives up its claim and its seat. In any run a link
speaks only for names it registered. In a strict run two links never claim one
name at a time, a link keeps to one name, and a link that leaves before taking
its seat leaves no older link in it; then the seat follows the newest generation. -/
namespace Succession
open Relation
variable {ω κ : Type*}

@[ext]
structure State (ω κ : Type*) where
  generation : ω → Nat
  seat : ω → Option κ
  claim : κ → Option ω
  name : κ → Option ω
  stamp : κ → Option Nat
  log : List (ω × Nat × κ)

variable {s s' : State ω κ}

structure Orderly (s : State ω κ) : Prop where
  named : ∀ w l, s.seat w = some l → s.name l = some w
  stamped : ∀ w l, s.seat w = some l → ∃ g, s.stamp l = some g ∧ (w, g, l) ∈ s.log ∧
    ((∀ k, s.claim k ≠ some w) → g = s.generation w)
  claimed : ∀ w l, s.claim l = some w → (w, s.generation w, l) ∈ s.log ∧
    (s.name l = none ∨ s.name l = some w)
  single : ∀ w k l, s.claim k = some w → s.claim l = some w → k = l
  unique : ∀ w g k l, (w, g, k) ∈ s.log → (w, g, l) ∈ s.log → k = l

namespace Orderly

/-- Between registrations the seat belongs to the newest generation. -/
theorem newest (orderly : Orderly s) {w : ω} {l : κ} (seated : s.seat w = some l)
    (settled : ∀ k, s.claim k ≠ some w) :
    s.stamp l = some (s.generation w) ∧ (w, s.generation w, l) ∈ s.log ∧
      ∀ k, (w, s.generation w, k) ∈ s.log → k = l := by
  obtain ⟨g, stamp, member, current⟩ := orderly.stamped w l seated
  obtain rfl := current settled
  exact ⟨stamp, member, fun k other => orderly.unique w _ k l other member⟩

theorem clear (orderly : Orderly s) : Orderly { s with seat := fun _ => none } :=
  ⟨nofun, nofun, orderly.claimed, orderly.single, orderly.unique⟩

end Orderly

variable [DecidableEq ω] [DecidableEq κ]

def State.registered (s : State ω κ) (l : κ) (w : ω) : State ω κ :=
  { s with
    generation := Function.update s.generation w (s.generation w + 1)
    claim := Function.update s.claim l (some w)
    log := s.log ++ [(w, s.generation w + 1, l)] }

def State.installed (s : State ω κ) (l : κ) (w : ω) : State ω κ :=
  { s with
    seat := Function.update s.seat w (some l)
    claim := Function.update s.claim l none
    name := Function.update s.name l (some w)
    stamp := Function.update s.stamp l (some (s.generation w)) }

def State.left (s : State ω κ) (l : κ) : State ω κ :=
  { s with
    seat := fun w => if s.name l = some w ∧ s.seat w = some l then none else s.seat w
    claim := Function.update s.claim l none }

inductive Move (strict : Prop) (s : State ω κ) : State ω κ → Prop
  | register {l : κ} {w : ω} : s.claim l = none →
      (strict → (∀ k, s.claim k ≠ some w) ∧ (s.name l = none ∨ s.name l = some w)) →
      Move strict s (s.registered l w)
  | install {l : κ} {w : ω} : s.claim l = some w → Move strict s (s.installed l w)
  | leave {l : κ} : (strict → ∀ w, s.claim l = some w → s.seat w = none ∨ s.seat w = some l) →
      Move strict s (s.left l)
  | clear : Move strict s { s with seat := fun _ => none }

/-- Whoever claims or bears a name has registered for it, and who sits bears one. -/
structure Recorded (s : State ω κ) : Prop where
  claimed : ∀ w l, s.claim l = some w → ∃ g, (w, g, l) ∈ s.log
  named : ∀ w l, s.name l = some w → ∃ g, (w, g, l) ∈ s.log
  seated : ∀ w l, s.seat w = some l → (s.name l).isSome = true
  logged : ∀ w g l, (w, g, l) ∈ s.log → 1 ≤ g ∧ g ≤ s.generation w

theorem Recorded.step {strict : Prop} (recorded : Recorded s) (move : Move strict s s') : Recorded s' := by
  cases move with
  | @register l w _ _ =>
    refine ⟨fun v k claims => ?_, fun v k named => ?_, recorded.seated, fun v g k member => ?_⟩
    · simp only [State.registered, Function.update_apply] at claims
      split at claims
      · rename_i same
        obtain rfl := Option.some.inj claims
        exact ⟨_, List.mem_append_right _ (by rw [same]; exact List.mem_singleton.mpr rfl)⟩
      · obtain ⟨g, member⟩ := recorded.claimed v k claims
        exact ⟨g, List.mem_append_left _ member⟩
    · obtain ⟨g, member⟩ := recorded.named v k named
      exact ⟨g, List.mem_append_left _ member⟩
    · simp only [State.registered, Function.update_apply]
      rcases List.mem_append.mp member with old | new
      · obtain ⟨low, high⟩ := recorded.logged v g k old
        refine ⟨low, ?_⟩
        split
        · rename_i same
          subst same
          omega
        · exact high
      · obtain ⟨rfl, rfl, rfl⟩ : v = w ∧ g = s.generation w + 1 ∧ k = l := by
          simpa using List.mem_singleton.mp new
        simp
  | @install l w claims =>
    refine ⟨fun v k claimed => ?_, fun v k named => ?_, fun v k seated => ?_, recorded.logged⟩
    · simp only [State.installed, Function.update_apply] at claimed
      split at claimed
      · cases claimed
      · exact recorded.claimed v k claimed
    · simp only [State.installed, Function.update_apply] at named
      split at named
      · rename_i same
        obtain rfl := Option.some.inj named
        rw [same]
        exact recorded.claimed w l claims
      · exact recorded.named v k named
    · simp only [State.installed, Function.update_apply] at seated ⊢
      split
      · rfl
      · rename_i apart
        split at seated
        · exact absurd (Option.some.inj seated).symm apart
        · exact recorded.seated v k seated
  | @leave l _ =>
    refine ⟨fun v k claimed => ?_, recorded.named, fun v k seated => ?_, recorded.logged⟩
    · simp only [State.left, Function.update_apply] at claimed
      split at claimed
      · cases claimed
      · exact recorded.claimed v k claimed
    · simp only [State.left] at seated
      split at seated
      · cases seated
      · exact recorded.seated v k seated
  | clear => exact ⟨recorded.claimed, recorded.named, nofun, recorded.logged⟩

namespace Orderly

theorem register (recorded : Recorded s) (orderly : Orderly s) {l : κ} {w : ω} (alone : ∀ k, s.claim k ≠ some w)
    (quiet : s.claim l = none) (own : s.name l = none ∨ s.name l = some w) :
    Orderly (s.registered l w) := by
  have fresh : ∀ k, (w, s.generation w + 1, k) ∉ s.log := fun k member => by
    have bound := (recorded.logged w _ k member).2
    omega
  constructor
  · exact orderly.named
  · intro v k seated
    obtain ⟨g, stamp, member, current⟩ := orderly.stamped v k seated
    refine ⟨g, stamp, List.mem_append_left _ member, fun none => ?_⟩
    have other : v ≠ w := by
      rintro rfl
      exact none l (Function.update_self ..)
    have unclaimed : ∀ j, s.claim j ≠ some v := by
      intro j claims
      refine none j ?_
      have apart : j ≠ l := by rintro rfl; rw [quiet] at claims; cases claims
      simp only [State.registered, Function.update_of_ne apart]
      exact claims
    simp only [State.registered, Function.update_of_ne other]
    exact current unclaimed
  · intro v k claims
    simp only [State.registered, Function.update_apply] at claims ⊢
    split at claims
    · rename_i same
      subst same
      obtain rfl := Option.some.inj claims
      simp only [if_true]
      exact ⟨List.mem_append_right _ (List.mem_singleton.mpr rfl), own⟩
    · obtain ⟨member, named⟩ := orderly.claimed v k claims
      have other : v ≠ w := by rintro rfl; exact alone k claims
      simp only [other, if_false]
      exact ⟨List.mem_append_left _ member, named⟩
  · intro v j k one two
    simp only [State.registered, Function.update_apply] at one two
    split at one <;> split at two
    · rename_i first second
      rw [first, second]
    · obtain rfl := Option.some.inj one
      exact absurd two (alone k)
    · obtain rfl := Option.some.inj two
      exact absurd one (alone j)
    · exact orderly.single v j k one two
  · intro v g j k one two
    rcases List.mem_append.mp one with old | new <;> rcases List.mem_append.mp two with old' | new'
    · exact orderly.unique v g j k old old'
    · obtain ⟨rfl, rfl, rfl⟩ : v = w ∧ g = s.generation w + 1 ∧ k = l := by
        simpa using List.mem_singleton.mp new'
      exact absurd old (fresh j)
    · obtain ⟨rfl, rfl, rfl⟩ : v = w ∧ g = s.generation w + 1 ∧ j = l := by
        simpa using List.mem_singleton.mp new
      exact absurd old' (fresh k)
    · have first := List.mem_singleton.mp new
      have second := List.mem_singleton.mp new'
      simp only [Prod.mk.injEq] at first second
      rw [first.2.2, second.2.2]

theorem install (orderly : Orderly s) {l : κ} {w : ω} (claims : s.claim l = some w) :
    Orderly (s.installed l w) := by
  obtain ⟨registered, own⟩ := orderly.claimed w l claims
  -- the link sat for no other name
  have elsewhere : ∀ v, v ≠ w → s.seat v ≠ some l := by
    intro v other seated
    have mine := orderly.named v l seated
    rcases own with none | same
    · rw [none] at mine
      cases mine
    · rw [same] at mine
      exact other (Option.some.inj mine).symm
  have claim_kept : ∀ {v k}, (s.installed l w).claim k = some v → k ≠ l ∧ s.claim k = some v := by
    intro v k still
    simp only [State.installed, Function.update_apply] at still
    split at still
    · cases still
    · rename_i apart
      exact ⟨apart, still⟩
  constructor
  · intro v k seated
    simp only [State.installed, Function.update_apply] at seated ⊢
    split at seated
    · rename_i same
      obtain rfl := Option.some.inj seated
      simp [same]
    · rename_i other
      have apart : k ≠ l := by rintro rfl; exact elsewhere v other seated
      simp only [apart, if_false]
      exact orderly.named v k seated
  · intro v k seated
    simp only [State.installed, Function.update_apply] at seated ⊢
    split at seated
    · rename_i same
      obtain rfl := Option.some.inj seated
      subst same
      simp only [if_true]
      exact ⟨s.generation v, rfl, registered, fun _ => rfl⟩
    · rename_i other
      have apart : k ≠ l := by rintro rfl; exact elsewhere v other seated
      simp only [apart, if_false]
      obtain ⟨g, stamp, member, current⟩ := orderly.stamped v k seated
      refine ⟨g, stamp, member, fun none => current (fun j still => ?_)⟩
      have notL : j ≠ l := by
        rintro rfl
        rw [claims] at still
        exact other (Option.some.inj still).symm
      have unclaimed := none j
      rw [if_neg notL] at unclaimed
      exact unclaimed still
  · intro v k still
    obtain ⟨apart, before⟩ := claim_kept still
    obtain ⟨member, named⟩ := orderly.claimed v k before
    refine ⟨member, ?_⟩
    simp only [State.installed, Function.update_of_ne apart]
    exact named
  · intro v j k one two
    exact orderly.single v j k (claim_kept one).2 (claim_kept two).2
  · exact orderly.unique

theorem leave (orderly : Orderly s) {l : κ}
    (clears : ∀ w, s.claim l = some w → s.seat w = none ∨ s.seat w = some l) : Orderly (s.left l) := by
  have seat_kept : ∀ {w k}, (s.left l).seat w = some k → k ≠ l ∧ s.seat w = some k := by
    intro w k seated
    simp only [State.left] at seated
    split at seated
    · cases seated
    · rename_i stays
      refine ⟨?_, seated⟩
      rintro rfl
      exact stays ⟨orderly.named w k seated, seated⟩
  have claim_kept : ∀ {w k}, (s.left l).claim k = some w → s.claim k = some w := by
    intro w k still
    simp only [State.left, Function.update_apply] at still
    split at still
    · cases still
    · exact still
  constructor
  · intro w k seated
    exact orderly.named w k (seat_kept seated).2
  · intro w k seated
    obtain ⟨apart, before⟩ := seat_kept seated
    obtain ⟨g, stamp, member, current⟩ := orderly.stamped w k before
    refine ⟨g, stamp, member, fun none => current (fun j still => ?_)⟩
    by_cases mine : j = l
    · subst mine
      rcases clears w still with empty | own
      · rw [before] at empty
        cases empty
      · rw [before] at own
        exact apart (Option.some.inj own)
    · refine none j ?_
      simp only [State.left, Function.update_of_ne mine]
      exact still
  · intro w k still
    exact orderly.claimed w k (claim_kept still)
  · intro w j k one two
    exact orderly.single w j k (claim_kept one) (claim_kept two)
  · exact orderly.unique

theorem step (recorded : Recorded s) (orderly : Orderly s) (move : Move True s s') : Orderly s' := by
  cases move with
  | register quiet strict =>
    obtain ⟨alone, own⟩ := strict trivial
    exact register recorded orderly alone quiet own
  | install claims => exact orderly.install claims
  | leave strict => exact orderly.leave (strict trivial)
  | clear => exact orderly.clear

end Orderly
end Succession
