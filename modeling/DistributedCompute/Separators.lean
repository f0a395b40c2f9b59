import Mathlib.Data.List.Infix

/-! Texts put together from parts: where a part that ends or starts at a separator
can be read back, and what two readings of one text have in common. -/
namespace Separators

theorem separator_unique {α : Type*} {c : α} {front front' back back' : List α}
    (same : front ++ c :: back = front' ++ c :: back') (last : c ∉ back) (last' : c ∉ back') :
    front = front' ∧ back = back' := by
  rcases List.append_eq_append_iff.mp same with ⟨rest, longer, tail⟩ | ⟨rest, longer, tail⟩
  · cases rest with
    | nil => simp_all
    | cons x rest =>
      obtain ⟨rfl, rfl⟩ := List.cons.inj tail
      exact absurd (by simp) last
  · cases rest with
    | nil => simp_all
    | cons x rest =>
      obtain ⟨rfl, rfl⟩ := List.cons.inj tail
      exact absurd (by simp) last'

/-- A word that ends in a separator and, but for its first letter, has no other: a text
that starts with the word and has the separator after some front either has it at once
or holds the whole word in the front and that separator. -/
theorem prefix_of_separator {α : Type*} {c : α} {word front rest tail : List α}
    (ends : ∀ shorter, shorter ++ [c] <+: word → shorter = [] ∨ shorter ++ [c] = word)
    (same : word ++ rest = front ++ c :: tail) : front = [] ∨ word <+: front ++ [c] := by
  have whole : word <+: word ++ rest := List.prefix_append word rest
  have cut : front ++ [c] <+: word ++ rest := by
    rw [same]
    exact ⟨tail, by simp⟩
  rcases List.prefix_or_prefix_of_prefix whole cut with longer | shorter
  · exact .inr longer
  · rcases ends front shorter with empty | equal
    · exact .inl empty
    · exact .inr (equal ▸ List.prefix_rfl)

theorem notMem_toDigits {c : Char} (letter : c.isDigit = false) (n : Nat) : c ∉ Nat.toDigits 10 n := by
  intro member
  have digit := Nat.isDigit_of_mem_toDigits (by decide) (by decide) member
  rw [letter] at digit
  cases digit

theorem toDigits_injective {m n : Nat} (same : Nat.toDigits 10 m = Nat.toDigits 10 n) : m = n := by
  calc
    m = Nat.ofDigitChars 10 (Nat.toDigits 10 m) 0 := Nat.ofDigitChars_ten_toDigits.symm
    _ = Nat.ofDigitChars 10 (Nat.toDigits 10 n) 0 := by rw [same]
    _ = n := Nat.ofDigitChars_ten_toDigits

end Separators
