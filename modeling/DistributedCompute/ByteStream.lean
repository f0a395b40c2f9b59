import Mathlib.Algebra.Ring.Nat
import Mathlib.Data.List.Basic

/-! Byte streams that end, read in pieces. How a stream is cut is an argument: it says
how many bytes each read would like to deliver. Numbers of a fixed width are written
most significant byte first. -/
namespace ByteStream

abbrev Bytes := List UInt8

/-! ### Numbers of a fixed width -/

def bigEndian : (width : Nat) → Nat → Bytes
  | 0, _ => []
  | width + 1, n => UInt8.ofNat (n / 256 ^ width) :: bigEndian width (n % 256 ^ width)

def value : Bytes → Nat
  | [] => 0
  | b :: rest => b.toNat * 256 ^ rest.length + value rest

@[simp] theorem length_bigEndian (width n : Nat) : (bigEndian width n).length = width := by
  induction width generalizing n with
  | zero => rfl
  | succ width ih => rw [bigEndian, List.length_cons, ih]

theorem value_bigEndian {width n : Nat} (fits : n < 256 ^ width) : value (bigEndian width n) = n := by
  induction width generalizing n with
  | zero =>
    obtain rfl : n = 0 := by simpa using fits
    rfl
  | succ width ih =>
    have positive : 0 < 256 ^ width := Nat.pow_pos (by decide)
    have digit : n / 256 ^ width < 256 := by
      rw [Nat.div_lt_iff_lt_mul positive, Nat.mul_comm]
      rwa [Nat.pow_succ] at fits
    rw [bigEndian, value, length_bigEndian, ih (Nat.mod_lt n positive), UInt8.toNat_ofNat_of_lt' digit]
    exact Nat.div_add_mod' n (256 ^ width)

/-! ### Reading -/

/-- What is left of the stream, and how many reads were made. -/
structure Socket where
  left : Bytes
  reads : Nat

/-- A read of at most `n` bytes: at least one, unless the stream has ended. -/
def Socket.recv (cut : Nat → Nat) (n : Nat) (s : Socket) : Bytes × Socket :=
  let size := max 1 (min (cut s.reads) n)
  (s.left.take size, ⟨s.left.drop size, s.reads + 1⟩)

/-- Exactly the next `n` bytes, or nothing at all when fewer are left. -/
def readExactly (n : Nat) (left : Bytes) : Option Bytes × Bytes :=
  if n ≤ left.length then (some (left.take n), left.drop n) else (none, [])

section Reading
variable {cut : Nat → Nat} {n : Nat} {s : Socket}

theorem recv_append (cut : Nat → Nat) (n : Nat) (s : Socket) :
    (s.recv cut n).1 ++ (s.recv cut n).2.left = s.left := List.take_append_drop ..

theorem length_recv (some : 0 < n) : (s.recv cut n).1.length ≤ n := by
  simp only [Socket.recv, List.length_take]
  omega

theorem recv_eq_nil : (s.recv cut n).1 = [] ↔ s.left = [] := by
  have size : max 1 (min (cut s.reads) n) ≠ 0 := by omega
  simp only [Socket.recv, List.take_eq_nil_iff, size, false_or]

end Reading

theorem readExactly_nil {n : Nat} (some : 0 < n) : readExactly n [] = (none, []) :=
  if_neg (Nat.not_le_of_lt some)

theorem readExactly_append {n : Nat} {front : Bytes} (left : Bytes) (fits : front.length ≤ n) :
    readExactly n (front ++ left) =
      ((readExactly (n - front.length) left).1.map (front ++ ·), (readExactly (n - front.length) left).2) := by
  unfold readExactly
  by_cases enough : n - front.length ≤ left.length
  · have whole : n ≤ (front ++ left).length := by rw [List.length_append]; omega
    rw [if_pos whole, if_pos enough, List.take_append, List.drop_append, List.take_of_length_le fits,
      List.drop_of_length_le fits]
    rfl
  · have short : ¬n ≤ (front ++ left).length := by rw [List.length_append]; omega
    rw [if_neg short, if_neg enough]
    rfl
end ByteStream
