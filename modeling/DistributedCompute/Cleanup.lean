/-! Blocks of code as what they did and how they ended, with the control forms that
decide what runs after a failure. An error of the cleanup replaces the one that led
to it. -/
namespace Cleanup

/-- The actions of a block in order, and the error that ended it, if one did. -/
structure Block (ε α : Type) where
  log : List α
  ended : Except ε Unit

namespace Block
variable {ε α : Type} {b c : Block ε α} {e : ε}

def skip : Block ε α := ⟨[], .ok ()⟩

/-- One action, with the outcome it has. -/
def step (a : α) (ended : Except ε Unit) : Block ε α := ⟨[a], ended⟩

/-- `b; c`. -/
def seq (b c : Block ε α) : Block ε α :=
  match b.ended with
  | .ok () => ⟨b.log ++ c.log, c.ended⟩
  | .error e => ⟨b.log, .error e⟩

/-- `try: b finally: c`. -/
def thenFinally (b c : Block ε α) : Block ε α :=
  match c.ended with
  | .ok () => ⟨b.log ++ c.log, b.ended⟩
  | .error e => ⟨b.log ++ c.log, .error e⟩

/-- `try: b except caught: c; raise`. -/
def thenReraise (caught : ε → Bool) (b c : Block ε α) : Block ε α :=
  match b.ended with
  | .ok () => b
  | .error e => if caught e then b.thenFinally c else b

/-- `try: b except caught: pass`. -/
def suppress (caught : ε → Bool) (b : Block ε α) : Block ε α :=
  match b.ended with
  | .ok () => b
  | .error e => if caught e then ⟨b.log, .ok ()⟩ else b

theorem seq_of_ok (done : b.ended = .ok ()) (c : Block ε α) : b.seq c = ⟨b.log ++ c.log, c.ended⟩ := by
  simp only [seq, done]

theorem seq_of_error (failed : b.ended = .error e) (c : Block ε α) : b.seq c = ⟨b.log, .error e⟩ := by
  simp only [seq, failed]

@[simp] theorem log_thenFinally (b c : Block ε α) : (b.thenFinally c).log = b.log ++ c.log := by
  unfold thenFinally
  split <;> rfl

theorem ended_thenFinally (b c : Block ε α) : (b.thenFinally c).ended = c.ended.bind (fun _ => b.ended) := by
  unfold thenFinally
  split <;> rename_i ended <;> rw [ended] <;> rfl

end Block
end Cleanup
