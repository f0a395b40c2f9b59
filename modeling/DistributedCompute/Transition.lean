import Mathlib.Logic.Relation

/-! Runs of a partial step function, with a condition on every step taken.
The condition `fun _ _ => True` gives all runs. A finite script of actions is
replayed by evaluation, so a concrete run needs no derivation by hand. -/
namespace Transition
open Relation
variable {σ α : Type*}

/-- Every enabled action taken from `s` to the final state met `ok` in the
state in which it was taken. -/
inductive Steps (step : σ → α → Option σ) (ok : σ → α → Prop) (s : σ) : σ → Prop
  | refl : Steps step ok s s
  | snoc {t u : σ} {a : α} : Steps step ok s t → ok t a → step t a = some u → Steps step ok s u

variable {step : σ → α → Option σ} {ok : σ → α → Prop} {s t u : σ}

namespace Steps

theorem trans (first : Steps step ok s t) (second : Steps step ok t u) : Steps step ok s u := by
  induction second with
  | refl => exact first
  | snoc _ good taken ih => exact .snoc ih good taken

theorem mono {weak : σ → α → Prop} (imp : ∀ t a, ok t a → weak t a) (run : Steps step ok s t) :
    Steps step weak s t := by
  induction run with
  | refl => exact .refl
  | snoc _ good taken ih => exact .snoc ih (imp _ _ good) taken

/-- The invariant rule: true at the start, kept by every step a run may take. -/
theorem invariant {I : σ → Prop} (run : Steps step ok s t) (initial : I s)
    (kept : ∀ t a u, I t → ok t a → step t a = some u → I u) : I t := by
  induction run with
  | refl => exact initial
  | snoc _ good taken ih => exact kept _ _ _ ih good taken

/-- The invariant rule when an earlier invariant of the same runs is at hand. -/
theorem invariant_with {I J : σ → Prop} (run : Steps step ok s t)
    (known : ∀ t, Steps step ok s t → J t) (initial : I s)
    (kept : ∀ t a u, J t → I t → ok t a → step t a = some u → I u) : I t := by
  induction run with
  | refl => exact initial
  | snoc before good taken ih => exact kept _ _ _ (known _ before) ih good taken

/-- A view under which every step is a sequence of abstract moves turns a run
into a sequence of abstract moves. -/
theorem simulate {β : Type*} {move : β → β → Prop} (view : σ → β) {J : σ → Prop}
    (run : Steps step ok s t) (known : ∀ t, Steps step ok s t → J t)
    (matched : ∀ t a u, J t → ok t a → step t a = some u → ReflTransGen move (view t) (view u)) :
    ReflTransGen move (view s) (view t) := by
  induction run with
  | refl => exact .refl
  | snoc before good taken ih => exact ih.trans (matched _ _ _ (known _ before) good taken)

end Steps

/-- Replay a script, refusing a step that is not enabled or does not meet `ok`. -/
def replay (step : σ → α → Option σ) (ok : σ → α → Prop) [∀ s a, Decidable (ok s a)] :
    σ → List α → Option σ
  | s, [] => some s
  | s, a :: rest => if ok s a then (step s a).bind (fun t => replay step ok t rest) else none

theorem replay_steps [∀ s a, Decidable (ok s a)] {script : List α}
    (h : replay step ok s script = some t) : Steps step ok s t := by
  induction script generalizing s with
  | nil =>
    obtain rfl := Option.some.inj h
    exact .refl
  | cons a rest ih =>
    rw [replay] at h
    split at h
    · rename_i good
      obtain ⟨next, taken, later⟩ := Option.bind_eq_some_iff.mp h
      exact (Steps.snoc .refl good taken).trans (ih later)
    · cases h

/-- A script that replays to a state with property `P` is a run to such a state. -/
theorem replay_reaches [∀ s a, Decidable (ok s a)] {P : σ → Prop} [DecidablePred P] (script : List α)
    (h : (replay step ok s script).any (fun t => decide (P t)) = true) : ∃ t, Steps step ok s t ∧ P t := by
  obtain ⟨t, played, holds⟩ := (Option.any_eq_true ..).mp h
  exact ⟨t, replay_steps played, of_decide_eq_true holds⟩

theorem replay_then [∀ s a, Decidable (ok s a)] {P : σ → σ → Prop} [∀ t u, Decidable (P t u)] (script : List α)
    (a : α) (h : (replay step ok s script).any (fun t => (step t a).any (fun u => decide (P t u))) = true) :
    ∃ t u, Steps step ok s t ∧ step t a = some u ∧ P t u := by
  obtain ⟨t, played, next⟩ := (Option.any_eq_true ..).mp h
  obtain ⟨u, taken, holds⟩ := (Option.any_eq_true ..).mp next
  exact ⟨t, u, replay_steps played, taken, of_decide_eq_true holds⟩

/-- Two scripts, the second under a condition of its own. -/
theorem replay_twice {later : σ → α → Prop} [∀ s a, Decidable (ok s a)] [∀ s a, Decidable (later s a)]
    {P : σ → σ → Prop} [∀ t u, Decidable (P t u)] (first second : List α)
    (h : (replay step ok s first).any (fun t => (replay step later t second).any (fun u => decide (P t u))) = true) :
    ∃ t u, Steps step ok s t ∧ Steps step later t u ∧ P t u := by
  obtain ⟨t, played, rest⟩ := (Option.any_eq_true ..).mp h
  obtain ⟨u, run, holds⟩ := replay_reaches second rest
  exact ⟨t, u, replay_steps played, run, holds⟩

end Transition
