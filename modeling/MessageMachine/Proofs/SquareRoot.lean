import Mathlib.Algebra.Group.Int.Even
import Mathlib.Algebra.Order.Ring.Int
import Mathlib.Data.Nat.Sqrt
import MessageMachine.Proofs.Arithmetic

/-!
# Square roots of integers

The root of a square is to be the integer that it is the square of, and the root of any other number
a double.  For a word the operation multiplies the root back, so that nothing is lost.  For a big
integer it does not: it answers the root rounded down, whether or not there is a remainder, and it
takes a zero that is held as a big integer for a negative number.  With these exceptions, which are
stated exactly, the roots of integers are what they are to be however the integers are held.
-/

namespace MessageMachine

namespace Integer

/-- The root rounded down is that of mathematics. -/
theorem floorRoot_eq_sqrt (number : Nat) : floorRoot number = number.sqrt :=
  Nat.eq_sqrt.mpr (floorRoot_bounds number)

/-- The square of the root rounded down is the number exactly if the number is a square. -/
theorem floorRoot_mul_self_iff (number : Nat) :
    floorRoot number * floorRoot number = number ↔ IsSquare (number : Int) := by
  rw [floorRoot_eq_sqrt, ← Nat.exists_mul_self]
  constructor
  · rintro ⟨root, square⟩
    exact ⟨root, by exact_mod_cast square.symm⟩
  · rintro ⟨root, square⟩
    refine ⟨root.natAbs, ?_⟩
    rw [← Int.natAbs_mul, ← square, Int.natAbs_natCast]

end Integer

namespace IntegerOperation

/-- Whether an operation answers a double, in every image and on every machine. -/
def AnswersDouble (operation : IntegerOperation) (arguments : List Value) (number : Double) :
    Prop :=
  ∀ machine image, (Primitive.integer operation).run machine arguments image =
    .ok (.double number) image

/-- Whether the root of a value is what the root of the integer is to be that the value holds. -/
structure HasExactRoot (value : Value) (number : Int) : Prop where
  /-- There are no roots of negative numbers. -/
  negative : number < 0 →
    root.Fails [value] (.refused (Primitive.integer root).title .negativeRoot)
  /-- The root of any other number is an integer exactly if the number is the square of it. -/
  integral : 0 ≤ number → ∀ r : Int, root.Answers [value] r ↔ 0 ≤ r ∧ r * r = number
  /-- A number that is no square has a double as its root. -/
  inexact : 0 ≤ number → ¬ IsSquare number →
    root.AnswersDouble [value] (Double.ofInt number).sqrt

section Replies

variable {operation : IntegerOperation} {arguments : List Value}

/-- An operation that needs no machine answers what it replies with. -/
theorem run_eq_ok_iff (settled : operation ≠ .atRandom) {value : Value} :
    (∀ machine image, (Primitive.integer operation).run machine arguments image =
      .ok value image) ↔ operation.reply arguments = .answer value := by
  constructor
  · intro runs
    have ran := runs (.ofBudget 0) (.empty .plain .standard false)
    rw [run_eq_conclude settled] at ran
    cases replied : operation.reply arguments with
    | answer answer =>
        rw [replied] at ran
        cases ran
        rfl
    | refuse | mismatch =>
        rw [replied] at ran
        cases ran
  · intro replied machine image
    rw [run_eq_conclude settled, replied]
    rfl

theorem answers_iff {number : Int} (settled : operation ≠ .atRandom) :
    operation.Answers arguments number ↔ operation.reply arguments = .answer (.ofInt number) := by
  constructor
  · rintro ⟨value, represents, runs⟩
    rw [← represents.eq_ofInt]
    exact (run_eq_ok_iff settled).mp runs
  · exact answers_of_reply settled

end Replies

/-! ## The three replies -/

section Roots

variable {value : Value}

theorem answers_root_iff {r : Int} :
    root.Answers [value] r ↔ squareRoot value = .integer r :=
  answers_iff (by decide)

theorem hasExactRoot_of_refused {number : Int} (negative : number < 0)
    (replied : squareRoot value = .refuse .negativeRoot) : HasExactRoot value number where
  negative _ := fails_of_refusal (by decide) replied
  integral nonnegative := absurd nonnegative (by omega)
  inexact nonnegative := absurd nonnegative (by omega)

theorem hasExactRoot_of_double {number : Nat} (inexact : ¬ IsSquare (number : Int))
    (replied : squareRoot value = .double (Double.ofInt number).sqrt) :
    HasExactRoot value number where
  negative negative := absurd negative (by omega)
  integral _ r := by
    rw [answers_root_iff, replied]
    constructor
    · intro same
      have held := congrArg Value.integral? (Reply.answer.inj same)
      rw [Value.integral?_ofInt] at held
      cases held
    · rintro ⟨-, isRoot⟩
      exact absurd ⟨r, isRoot.symm⟩ inexact
  inexact _ _ := (run_eq_ok_iff (by decide)).mpr replied

theorem hasExactRoot_of_rounded {number : Nat} (square : IsSquare (number : Int))
    (replied : squareRoot value = .integer (Integer.floorRoot number)) :
    HasExactRoot value number where
  negative negative := absurd negative (by omega)
  integral _ r := by
    rw [answers_root_iff, replied, Reply.integer, Reply.integer, Reply.answer.injEq,
      Value.ofInt_inj]
    have same : (Integer.floorRoot number : Int) * Integer.floorRoot number = number := by
      exact_mod_cast (Integer.floorRoot_mul_self_iff number).mpr square
    constructor
    · rintro rfl
      exact ⟨Int.natCast_nonneg _, same⟩
    · rintro ⟨nonnegative, isRoot⟩
      exact (mul_self_inj (Int.natCast_nonneg _) nonnegative).mp (same.trans isRoot.symm)
  inexact _ inexact := absurd square inexact

/-- The root of a word is exact, whatever the word. -/
theorem hasExactRoot_integer (word : Int64) : HasExactRoot (.integer word) word.toInt := by
  by_cases negative : word < 0
  · have below : word.toInt < 0 := by
      rwa [Int64.lt_iff_toInt_lt, Int64.toInt_zero] at negative
    exact hasExactRoot_of_refused below (if_pos negative)
  · have nonnegative : 0 ≤ word.toInt := by
      rwa [Int64.lt_iff_toInt_lt, Int64.toInt_zero, Int.not_lt] at negative
    obtain ⟨number, held⟩ := Int.eq_ofNat_of_zero_le nonnegative
    have tried : squareRoot (.integer word) =
        if Integer.floorRoot number * Integer.floorRoot number = number then
          .integer (Integer.floorRoot number)
        else .double (Double.ofInt number).sqrt := by
      simp only [squareRoot, if_neg negative, held, Int.toNat_natCast]
    rw [held]
    by_cases square : Integer.floorRoot number * Integer.floorRoot number = number
    · rw [if_pos square] at tried
      exact hasExactRoot_of_rounded ((Integer.floorRoot_mul_self_iff number).mp square) tried
    · rw [if_neg square] at tried
      exact hasExactRoot_of_double (square ∘ (Integer.floorRoot_mul_self_iff number).mpr) tried

theorem squareRoot_big {number : Nat} (positive : 0 < number) :
    squareRoot (.big number) = .integer (Integer.floorRoot number) := by
  simp [squareRoot, positive]

theorem squareRoot_big_of_nonpos {number : Int} (nonpositive : number ≤ 0) :
    squareRoot (.big number) = .refuse .negativeRoot :=
  if_neg (Int.not_lt.mpr nonpositive)

/-- The root of a big integer is exact but for zero and the numbers that are no squares. -/
theorem hasExactRoot_big_iff (number : Int) :
    HasExactRoot (.big number) number ↔ number < 0 ∨ (number ≠ 0 ∧ IsSquare number) := by
  rcases lt_trichotomy number 0 with negative | rfl | positive
  · exact iff_of_true (hasExactRoot_of_refused negative (squareRoot_big_of_nonpos negative.le))
      (.inl negative)
  · refine iff_of_false (fun exact => ?_) (by simp)
    have answered := answers_root_iff.mp ((exact.integral le_rfl 0).mpr ⟨le_rfl, rfl⟩)
    rw [squareRoot_big_of_nonpos le_rfl] at answered
    cases answered
  · obtain ⟨number, rfl⟩ := Int.eq_ofNat_of_zero_le positive.le
    have rounded := squareRoot_big (Int.natCast_pos.mp positive)
    constructor
    · intro exact
      have answered := (exact.integral positive.le _).mp (answers_root_iff.mpr rounded)
      exact .inr ⟨positive.ne', _, answered.2.symm⟩
    · rintro (negative | ⟨-, square⟩)
      · exact absurd negative positive.not_gt
      · exact hasExactRoot_of_rounded square rounded

end Roots

end IntegerOperation

open IntegerOperation

/-- Let a value hold an integer.  Its square root is what it is to be if the value is a word, and
otherwise exactly if the integer is negative, or is the square of a number other than zero.  The
root of any other big integer is wrong: a number that is no square has its root rounded down, where
a word would have a double, and a zero is taken for a negative number. -/
theorem square_roots_of_integers {value : Value} {number : Int}
    (holds : value.integral? = some number) :
    (HasExactRoot value number ↔
      (∃ word, value = .integer word) ∨ number < 0 ∨ (number ≠ 0 ∧ IsSquare number)) ∧
    (value = .big number → 0 < number → root.Answers [value] number.toNat.sqrt) ∧
    (value = .big 0 → root.Fails [value] (.refused (Primitive.integer root).title .negativeRoot)) ∧
    Refusal.negativeRoot.message = "square root of a negative number" := by
  refine ⟨?_, ?_, ?_, rfl⟩
  · cases value with
    | integer word =>
        cases holds
        exact iff_of_true (hasExactRoot_integer word) (.inl ⟨word, rfl⟩)
    | big number =>
        cases holds
        have noWord : ¬ ∃ word, Value.big number = .integer word := by
          rintro ⟨_, same⟩
          cases same
        rw [hasExactRoot_big_iff, or_iff_right noWord]
    | _ => cases holds
  · rintro rfl positive
    obtain ⟨number, rfl⟩ := Int.eq_ofNat_of_zero_le positive.le
    rw [Int.toNat_natCast, ← Integer.floorRoot_eq_sqrt]
    exact answers_root_iff.mpr (squareRoot_big (Int.natCast_pos.mp positive))
  · rintro rfl
    exact fails_of_refusal (by decide) (squareRoot_big_of_nonpos le_rfl)

/-- A square that is too large for a word has the number as its root that it is the square of. -/
theorem square_roots_of_integers_far :
    root.Answers [.big 100000000000000000000] 10000000000 := by
  have exact := (@square_roots_of_integers (.big 100000000000000000000) _ rfl).1.mpr
    (.inr (.inr ⟨by decide, 10000000000, by decide⟩))
  exact (exact.integral (by decide) 10000000000).mpr (by decide)

/-- The number above the square of `2 ^ 32` has `2 ^ 32` as its root, as the square itself does. -/
theorem big_root_loses_its_remainder :
    root.Answers [.big 18446744073709551617] 4294967296 ∧
      ¬ HasExactRoot (.big 18446744073709551617) 18446744073709551617 := by
  have rounded : Integer.floorRoot 18446744073709551617 = 4294967296 := by
    rw [Integer.floorRoot_eq_sqrt]
    exact (Nat.eq_sqrt.mpr (by decide)).symm
  have answers : root.Answers [.big 18446744073709551617] 4294967296 := by
    rw [answers_root_iff]
    refine (@squareRoot_big 18446744073709551617 (by decide)).trans ?_
    rw [rounded]
    rfl
  refine ⟨answers, fun exact => ?_⟩
  have square := ((exact.integral (by decide) _).mp answers).2
  exact absurd square (by decide)

end MessageMachine
