import Mathlib.Data.List.Basic
import Mathlib.Data.List.Forall2

/-! Computations that may raise, and loops of them: what a sequence that came to its
end did at each step, and what two loops have in common that agree on every turn. -/
namespace Raising

theorem bind_eq_ok {ε α β : Type} {x : Except ε α} {f : α → Except ε β} {b : β} :
    x >>= f = .ok b ↔ ∃ a, x = .ok a ∧ f a = .ok b := by
  cases x <;> simp [bind, Except.bind]

theorem map_eq_ok {ε α β : Type} {x : Except ε α} {f : α → β} {b : β} :
    f <$> x = .ok b ↔ ∃ a, x = .ok a ∧ f a = b := by
  cases x <;> simp [Functor.map, Except.map]

theorem map_eq_error {ε α β : Type} {x : Except ε α} {f : α → β} {e : ε} : x.map f = .error e ↔ x = .error e := by
  cases x <;> simp [Except.map]

/-! ### Lists related element by element -/

theorem forall₂_and_right {α β : Type} {r : α → β → Prop} {q : β → Prop} {xs : List α} {ys : List β} :
    List.Forall₂ (fun x y => r x y ∧ q y) xs ys ↔ List.Forall₂ r xs ys ∧ ∀ y ∈ ys, q y := by
  constructor
  · intro both
    induction both with
    | nil => exact ⟨.nil, fun y member => (by cases member)⟩
    | cons here _ ih => exact ⟨.cons here.1 ih.1, List.forall_mem_cons.mpr ⟨here.2, ih.2⟩⟩
  · rintro ⟨related, all⟩
    induction related with
    | nil => exact .nil
    | cons here _ ih =>
      obtain ⟨first, rest⟩ := List.forall_mem_cons.mp all
      exact .cons ⟨here, first⟩ (ih rest)

/-- A relation between lists that are cut: each part is related to a part. -/
theorem forall₂_flatten_left {α β : Type} {r : α → β → Prop} {parts : List (List α)} {ys : List β}
    (related : List.Forall₂ r parts.flatten ys) :
    ∃ images, List.Forall₂ (List.Forall₂ r) parts images ∧ images.flatten = ys := by
  induction parts generalizing ys with
  | nil =>
    rw [List.flatten_nil, List.forall₂_nil_left_iff] at related
    exact ⟨[], .nil, related.symm⟩
  | cons part rest ih =>
    rw [List.flatten_cons] at related
    have first := List.forall₂_take part.length related
    have later := List.forall₂_drop part.length related
    rw [List.take_left] at first
    rw [List.drop_left] at later
    obtain ⟨images, all, flat⟩ := ih later
    refine ⟨ys.take part.length :: images, .cons first all, ?_⟩
    rw [List.flatten_cons, flat, List.take_append_drop]

theorem forall₂_flatten {α β : Type} {r : α → β → Prop} {parts : List (List α)} {images : List (List β)}
    (related : List.Forall₂ (List.Forall₂ r) parts images) : List.Forall₂ r parts.flatten images.flatten := by
  induction related with
  | nil => exact .nil
  | cons here _ ih => exact List.rel_append here ih

theorem exists_right_of_forall₂ {α β : Type} {r : α → β → Prop} {xs : List α} {ys : List β}
    (related : List.Forall₂ r xs ys) {x : α} (member : x ∈ xs) : ∃ y ∈ ys, r x y := by
  induction related with
  | nil => cases member
  | cons here _ ih =>
    rcases List.mem_cons.mp member with rfl | later
    · exact ⟨_, List.mem_cons_self, here⟩
    · obtain ⟨y, there, holds⟩ := ih later
      exact ⟨y, List.mem_cons_of_mem _ there, holds⟩

/-! ### Loops that produce a list -/

theorem mapM_ok_iff {ε α β : Type} {f : α → Except ε β} {xs : List α} {ys : List β} :
    xs.mapM f = .ok ys ↔ List.Forall₂ (fun x y => f x = .ok y) xs ys := by
  induction xs generalizing ys with
  | nil =>
    rw [List.mapM_nil, List.forall₂_nil_left_iff]
    exact ⟨fun h => (Except.ok.inj h).symm, fun h => congrArg Except.ok h.symm⟩
  | cons x xs ih =>
    rw [List.mapM_cons, List.forall₂_cons_left_iff]
    constructor
    · intro h
      obtain ⟨y, here, h⟩ := bind_eq_ok.mp h
      obtain ⟨rest, later, h⟩ := bind_eq_ok.mp h
      exact ⟨y, rest, here, ih.mp later, (Except.ok.inj h).symm⟩
    · rintro ⟨y, rest, here, later, rfl⟩
      exact bind_eq_ok.mpr ⟨y, here, bind_eq_ok.mpr ⟨rest, ih.mpr later, rfl⟩⟩

theorem mapM_eq_some {α β : Type*} {g : α → Option β} {xs : List α} {ys : List β} :
    xs.mapM g = some ys ↔ xs.map g = ys.map some := by
  induction xs generalizing ys with
  | nil => cases ys <;> simp
  | cons x rest ih =>
    simp only [List.mapM_cons, Option.bind_eq_bind, Option.bind_eq_some_iff, Option.pure_def, Option.some.injEq, ih]
    constructor
    · rintro ⟨y, first, rest', later, rfl⟩
      rw [List.map_cons, List.map_cons, first, later]
    · intro same
      cases ys with
      | nil => cases same
      | cons y ys =>
        obtain ⟨first, later⟩ := List.cons.inj same
        exact ⟨y, first, ys, later, rfl⟩

theorem mem_of_mapM {α β : Type*} {f : α → Option β} {xs : List α} {ys : List β} (all : xs.mapM f = some ys) :
    (∀ x ∈ xs, ∃ y ∈ ys, f x = some y) ∧ ∀ y ∈ ys, ∃ x ∈ xs, f x = some y := by
  have maps := mapM_eq_some.mp all
  constructor
  · intro x member
    have image : f x ∈ ys.map some := maps ▸ List.mem_map_of_mem member
    obtain ⟨y, there, same⟩ := List.mem_map.mp image
    exact ⟨y, there, same.symm⟩
  · intro y member
    have image : some y ∈ xs.map f := maps ▸ List.mem_map_of_mem member
    exact List.mem_map.mp image

/-! ### Loops with an accumulator -/

theorem foldlM_keeps {α β ε : Type} {P : β → Prop} {f : β → α → Except ε β}
    (step : ∀ {b x b'}, P b → f b x = .ok b' → P b') {xs : List α} {b b' : β} (start : P b)
    (ran : xs.foldlM f b = .ok b') : P b' := by
  induction xs generalizing b with
  | nil =>
    cases ran
    exact start
  | cons x xs ih =>
    rw [List.foldlM_cons] at ran
    obtain ⟨next, here, later⟩ := bind_eq_ok.mp ran
    exact ih (step start here) later

/-- Two loops that agree on every turn: both go on alike, or both raise. -/
theorem foldlM_alike {α β ε δ : Type} {f : β → α → Except ε β} {g : β → α → Except δ β} {p : String → ε}
    {q : String → δ} {xs : List α} (alike : ∀ x ∈ xs, ∀ b, (∃ b', f b x = .ok b' ∧ g b x = .ok b') ∨
      ∃ here there, f b x = .error (p here) ∧ g b x = .error (q there)) (b : β) :
    (∃ b', xs.foldlM f b = .ok b' ∧ xs.foldlM g b = .ok b') ∨
      ∃ here there, xs.foldlM f b = .error (p here) ∧ xs.foldlM g b = .error (q there) := by
  induction xs generalizing b with
  | nil => exact .inl ⟨b, rfl, rfl⟩
  | cons x rest ih =>
    obtain ⟨here, later⟩ := List.forall_mem_cons.mp alike
    rw [List.foldlM_cons, List.foldlM_cons]
    rcases here b with ⟨b', first, second⟩ | ⟨mine, yours, first, second⟩
    · rw [first, second]
      exact ih later b'
    · rw [first, second]
      exact .inr ⟨mine, yours, rfl, rfl⟩

theorem agree_of_alike {β ε δ : Type} {x : Except ε β} {y : Except δ β} {p : String → ε} {q : String → δ}
    (alike : (∃ b, x = .ok b ∧ y = .ok b) ∨ ∃ here there, x = .error (p here) ∧ y = .error (q there)) :
    (∀ d, x = .ok d ↔ y = .ok d) ∧ ((∃ text, x = .error (p text)) ↔ ∃ text, y = .error (q text)) := by
  rcases alike with ⟨b, rfl, rfl⟩ | ⟨here, there, rfl, rfl⟩
  · simp
  · refine ⟨by simp, ?_⟩
    exact ⟨fun _ => ⟨there, rfl⟩, fun _ => ⟨here, rfl⟩⟩

end Raising
