import Mathlib.Data.List.Basic
import DistributedCompute.Raising

/-! Futures of one event loop: cells that are filled or cancelled once and stay
so. A future is named by its place in the list of all futures created so far.
`gather` waits on several futures; it is over when one of them was cancelled or
all of them are filled. -/
namespace Futures
open Raising
variable {α : Type*}

inductive Future (α : Type*)
  | pending
  | result (value : α)
  | cancelled
  deriving Repr

abbrev FutureId := Nat

namespace Future

def done : Future α → Bool
  | .pending => false
  | _ => true

def value? : Future α → Option α
  | .result value => some value
  | _ => none

def isCancelled : Future α → Bool
  | .cancelled => true
  | _ => false

/-- `set_result` on a future that is not done. -/
def fill (value : α) : Future α → Future α
  | .pending => .result value
  | done => done

/-- `cancel`, which does nothing on a future that is done. -/
def cancel : Future α → Future α
  | .pending => .cancelled
  | done => done

theorem fill_of_done {cell : Future α} (h : cell.done = true) (value : α) : cell.fill value = cell := by
  cases cell with
  | pending => cases h
  | result _ | cancelled => rfl

theorem cancel_of_done {cell : Future α} (h : cell.done = true) : cell.cancel = cell := by
  cases cell with
  | pending => cases h
  | result _ | cancelled => rfl

theorem not_pending_cancel (cell : Future α) : cell.cancel ≠ .pending := by
  cases cell <;> exact fun h => by cases h

end Future

def isPending (cells : List (Future α)) (f : FutureId) : Bool :=
  match cells[f]? with
  | some .pending => true
  | _ => false

def setResult (cells : List (Future α)) (f : FutureId) (value : α) : List (Future α) :=
  cells.modify f (Future.fill value)

def cancelAll (cells : List (Future α)) (fs : List FutureId) : List (Future α) :=
  cells.mapIdx (fun f cell => if f ∈ fs then cell.cancel else cell)

/-- The futures among `fs` that a cancellation of all of them would cancel. -/
def unfinished (cells : List (Future α)) (fs : List FutureId) : List FutureId :=
  fs.filter (isPending cells)

/-- The results of a gather over `fs`, if every one of them is filled. -/
def results? (cells : List (Future α)) (fs : List FutureId) : Option (List α) :=
  fs.mapM (fun f => (cells[f]?).bind Future.value?)

def gatherDone (cells : List (Future α)) (fs : List FutureId) : Bool :=
  fs.any (fun f => (cells[f]?).any Future.isCancelled) || (results? cells fs).isSome

/-! ### Reading a cell after an operation -/

variable {cells cells' : List (Future α)} {f : FutureId} {fs : List FutureId}

theorem isPending_iff :
    isPending cells f = true ↔ cells[f]? = some .pending := by
  unfold isPending
  split <;> simp_all

theorem getElem?_modify_ite {β : Type*} (xs : List β) (i k : Nat) (g : β → β) :
    (xs.modify i g)[k]? = if k = i then (xs[k]?).map g else xs[k]? := by
  simp only [List.getElem?_modify, eq_comm (a := i)]
  split <;> simp

theorem getElem?_concat_cases {β : Type*} {xs : List β} {x y : β} {k : Nat} (h : (xs ++ [x])[k]? = some y) :
    xs[k]? = some y ∨ (k = xs.length ∧ y = x) := by
  rw [List.getElem?_append] at h
  split at h
  · exact .inl h
  · rename_i past
    obtain ⟨here, there⟩ := List.getElem?_eq_some_iff.mp h
    have last : k = xs.length := by
      simp only [List.length_singleton] at here
      omega
    subst last
    exact .inr ⟨rfl, by simpa using there.symm⟩

theorem getElem?_setResult (cells : List (Future α)) (f g : FutureId) (value : α) :
    (setResult cells f value)[g]? = if g = f then (cells[g]?).map (Future.fill value) else cells[g]? :=
  getElem?_modify_ite cells f g _

theorem getElem?_cancelAll (cells : List (Future α)) (fs : List FutureId) (g : FutureId) :
    (cancelAll cells fs)[g]? = (cells[g]?).map (fun cell => if g ∈ fs then cell.cancel else cell) := by
  simp [cancelAll, List.getElem?_mapIdx]

/-! ### Futures only move forward -/

/-- From `cells` to `cells'` no future disappears and none that is done changes. -/
def Advances (cells cells' : List (Future α)) : Prop :=
  ∀ (f : FutureId) (cell : Future α), cells[f]? = some cell →
    ∃ cell', cells'[f]? = some cell' ∧ (cell.done = true → cell' = cell)

theorem Advances.refl (cells : List (Future α)) : Advances cells cells :=
  fun _ cell there => ⟨cell, there, fun _ => rfl⟩

theorem advances_append (cells more : List (Future α)) : Advances cells (cells ++ more) := by
  intro f cell there
  obtain ⟨inside, _⟩ := List.getElem?_eq_some_iff.mp there
  exact ⟨cell, by rw [List.getElem?_append_left inside, there], fun _ => rfl⟩

theorem advances_setResult (cells : List (Future α)) (f : FutureId) (value : α) :
    Advances cells (setResult cells f value) := by
  intro g cell there
  rw [getElem?_setResult, there]
  by_cases same : g = f
  · exact ⟨cell.fill value, by simp [same], fun ended => Future.fill_of_done ended value⟩
  · exact ⟨cell, by simp [same], fun _ => rfl⟩

theorem advances_cancelAll (cells : List (Future α)) (fs : List FutureId) : Advances cells (cancelAll cells fs) := by
  intro g cell there
  rw [getElem?_cancelAll, there]
  by_cases named : g ∈ fs
  · exact ⟨cell.cancel, by simp [named], fun ended => Future.cancel_of_done ended⟩
  · exact ⟨cell, by simp [named], fun _ => rfl⟩

theorem Advances.pending (later : Advances cells cells') (known : f < cells.length) (h : cells'[f]? = some .pending) :
    cells[f]? = some .pending := by
  obtain ⟨cell, there⟩ : ∃ cell, cells[f]? = some cell := ⟨_, List.getElem?_eq_getElem known⟩
  obtain ⟨cell', there', kept⟩ := later f cell there
  obtain rfl : cell' = .pending := Option.some.inj (there'.symm.trans h)
  cases cell with
  | pending => exact there
  | result value => cases kept rfl
  | cancelled => cases kept rfl

theorem Advances.result (later : Advances cells cells') {value : α} (h : cells[f]? = some (.result value)) :
    cells'[f]? = some (.result value) := by
  obtain ⟨cell', there', kept⟩ := later f _ h
  rw [there', kept rfl]

theorem Advances.length_le (later : Advances cells cells') :
    cells.length ≤ cells'.length := by
  rcases Nat.eq_zero_or_pos cells.length with empty | filled
  · omega
  · obtain ⟨cell, there⟩ : ∃ cell, cells[cells.length - 1]? = some cell :=
      ⟨_, List.getElem?_eq_getElem (by omega)⟩
    obtain ⟨_, there', _⟩ := later _ cell there
    obtain ⟨inside, _⟩ := List.getElem?_eq_some_iff.mp there'
    omega

theorem not_isPending_cancelAll (named : f ∈ fs) :
    (cancelAll cells fs)[f]? ≠ some .pending := by
  rw [getElem?_cancelAll]
  intro h
  obtain ⟨cell, _, cancelled⟩ := Option.map_eq_some_iff.mp h
  rw [if_pos named] at cancelled
  exact cell.not_pending_cancel cancelled

/-! ### When a gather is over -/

/-- The results of a gather, paired with what each future was awaited for. -/
theorem results?_zip {κ : Type*} {awaited : List (κ × FutureId)} {values : List α}
    (all : results? cells (awaited.map Prod.snd) = some values) :
    (∀ k value, (k, value) ∈ (awaited.map Prod.fst).zip values →
      ∃ f, (k, f) ∈ awaited ∧ cells[f]? = some (.result value)) ∧
    (∀ k f, (k, f) ∈ awaited → ∃ value, (k, value) ∈ (awaited.map Prod.fst).zip values) := by
  rw [results?, mapM_eq_some, List.map_map] at all
  induction awaited generalizing values with
  | nil => exact ⟨fun _ _ member => (by cases member), fun _ _ member => (by cases member)⟩
  | cons entry rest ih =>
    cases values with
    | nil => cases all
    | cons value values =>
      obtain ⟨here, later⟩ := List.cons.inj all
      obtain ⟨forth, back⟩ := ih later
      constructor
      · intro k v member
        rcases List.mem_cons.mp member with same | member
        · obtain ⟨rfl, rfl⟩ := Prod.mk.inj same
          refine ⟨entry.2, List.mem_cons_self .., ?_⟩
          obtain ⟨cell, there, filled⟩ := Option.bind_eq_some_iff.mp here
          cases cell with
          | pending | cancelled => cases filled
          | result _ =>
            cases filled
            exact there
        · obtain ⟨f, awaits, filled⟩ := forth k v member
          exact ⟨f, List.mem_cons_of_mem _ awaits, filled⟩
      · intro k f member
        rcases List.mem_cons.mp member with rfl | member
        · exact ⟨value, List.mem_cons_self ..⟩
        · obtain ⟨v, paired⟩ := back k f member
          exact ⟨v, List.mem_cons_of_mem _ paired⟩

theorem results?_of_filled (filled : ∀ f ∈ fs, ∃ value, cells[f]? = some (.result value)) :
    (results? cells fs).isSome = true := by
  induction fs with
  | nil => rfl
  | cons f rest ih =>
    obtain ⟨value, there⟩ := filled f (by simp)
    obtain ⟨values, all⟩ := Option.isSome_iff_exists.mp (ih (fun g member => filled g (by simp [member])))
    rw [results?] at all ⊢
    simp [List.mapM_cons, there, Future.value?, all]

theorem filled_of_gatherDone (ended : gatherDone cells fs = true) (whole : ∀ f ∈ fs, cells[f]? ≠ some .cancelled)
    (member : f ∈ fs) :
    ∃ value, cells[f]? = some (.result value) := by
  rw [gatherDone, Bool.or_eq_true] at ended
  rcases ended with some_cancelled | all
  · obtain ⟨g, member, cancelled⟩ := List.any_eq_true.mp some_cancelled
    obtain ⟨cell, there, is⟩ := (Option.any_eq_true ..).mp cancelled
    cases cell with
    | pending | result _ => cases is
    | cancelled => exact absurd there (whole g member)
  · obtain ⟨values, all⟩ := Option.isSome_iff_exists.mp all
    obtain ⟨value, _, filled⟩ := List.mem_map.mp (mapM_eq_some.mp all ▸ List.mem_map_of_mem member)
    obtain ⟨cell, there, is⟩ := Option.bind_eq_some_iff.mp filled.symm
    cases cell with
    | pending | cancelled => cases is
    | result value => exact ⟨value, there⟩

theorem gatherDone_of_none_pending (known : ∀ f ∈ fs, f < cells.length)
    (ended : ∀ f ∈ fs, cells[f]? ≠ some .pending) : gatherDone cells fs = true := by
  rw [gatherDone, Bool.or_eq_true]
  by_cases cancelled : fs.any (fun f => (cells[f]?).any Future.isCancelled) = true
  · exact .inl cancelled
  · refine .inr (results?_of_filled ?_)
    intro f member
    obtain ⟨cell, there⟩ : ∃ cell, cells[f]? = some cell := ⟨_, List.getElem?_eq_getElem (known f member)⟩
    cases cell with
    | pending => exact absurd there (ended f member)
    | cancelled => exact absurd (List.any_eq_true.mpr ⟨f, member, by simp [there, Future.isCancelled]⟩) cancelled
    | result value => exact ⟨value, there⟩

end Futures
