/-!
# Powers of two and of ten

Scaling by the base of a number format.  Both are plain powers of natural numbers.
-/

namespace MessageMachine

/-- A power of two. -/
def powerOfTwo (exponent : Nat) : Nat :=
  Nat.pow 2 exponent

/-- A power of ten. -/
def powerOfTen (exponent : Nat) : Nat :=
  Nat.pow 10 exponent

theorem powerOfTwo_zero : powerOfTwo 0 = 1 :=
  rfl

theorem powerOfTwo_succ (exponent : Nat) : powerOfTwo (exponent + 1) = powerOfTwo exponent * 2 :=
  rfl

theorem powerOfTwo_pos (exponent : Nat) : 0 < powerOfTwo exponent := by
  induction exponent with
  | zero => decide
  | succ exponent inductionHypothesis =>
      rw [powerOfTwo_succ]
      exact Nat.mul_pos inductionHypothesis (by decide)

theorem powerOfTen_zero : powerOfTen 0 = 1 :=
  rfl

theorem powerOfTen_succ (exponent : Nat) : powerOfTen (exponent + 1) = powerOfTen exponent * 10 :=
  rfl

theorem powerOfTen_pos (exponent : Nat) : 0 < powerOfTen exponent := by
  induction exponent with
  | zero => decide
  | succ exponent inductionHypothesis =>
      rw [powerOfTen_succ]
      exact Nat.mul_pos inductionHypothesis (by decide)

end MessageMachine
