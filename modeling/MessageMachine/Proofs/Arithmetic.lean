import Mathlib.Data.Int.Bitwise
import Mathlib.Data.Rat.Floor
import MessageMachine.Machine.Activation

/-!
# Integer arithmetic is exact

Whatever two integers are held as, an operation on them answers the integer that mathematics says,
in normal form.  There are two things to show for each operation: that a word which the operation on
words gives is the number that the unbounded operation computes, and that the unbounded operation
computes the right number.  The first is known of the operations on words.  So it does not matter
which way a result was found, nor how the operands were held.
-/

namespace MessageMachine

namespace Integer

theorem floorQuotient_eq_fdiv (dividend : Int) {divisor : Int} (nonzero : divisor ≠ 0) :
    floorQuotient dividend divisor = dividend.fdiv divisor := by
  have even : dividend.tmod divisor = 0 ↔ divisor ∣ dividend := Int.dvd_iff_tmod_eq_zero.symm
  rw [Int.fdiv_eq_tdiv]
  simp only [floorQuotient, even]
  rcases Int.lt_or_lt_of_ne nonzero with negative | positive
  · rw [Int.sign_eq_neg_one_of_neg negative]
    grind
  · rw [Int.sign_eq_one_of_pos positive]
    grind

/-- Division that rounds down gives the largest integer below the fraction. -/
theorem fdiv_eq_floor (dividend divisor : Int) :
    dividend.fdiv divisor = ⌊(dividend : ℚ) / divisor⌋ := by
  have nonnegative : ∀ (dividend : Int) (divisor : Nat),
      dividend.fdiv divisor = ⌊(dividend : ℚ) / (divisor : Int)⌋ := by
    intro dividend divisor
    rw [Int.fdiv_eq_ediv_of_nonneg _ (Int.natCast_nonneg divisor), Int.cast_natCast,
      Rat.floor_intCast_div_natCast]
  rcases Int.eq_nat_or_neg divisor with ⟨size, rfl | rfl⟩
  · exact nonnegative dividend size
  · have opposite := nonnegative (-dividend) size
    rw [← Int.neg_neg (size : Int), Int.neg_fdiv_neg] at opposite
    rw [opposite]
    push_cast
    rw [neg_neg, neg_div, div_neg]

theorem floorQuotient_eq_floor (dividend : Int) {divisor : Int} (nonzero : divisor ≠ 0) :
    floorQuotient dividend divisor = ⌊(dividend : ℚ) / divisor⌋ :=
  (floorQuotient_eq_fdiv dividend nonzero).trans (fdiv_eq_floor dividend divisor)

/-- The bits of a conjunction. -/
theorem testBit_conjunction (left right : Int) (index : Nat) :
    (conjunction left right).testBit index = (left.testBit index && right.testBit index) := by
  cases left <;> cases right <;>
    simp only [conjunction, Int.testBit, Nat.testBit_and, Nat.testBit_or, Nat.testBit_xor] <;>
    grind

/-- The bits of an exclusive disjunction. -/
theorem testBit_exclusiveDisjunction (left right : Int) (index : Nat) :
    (exclusiveDisjunction left right).testBit index =
      (left.testBit index ^^ right.testBit index) := by
  cases left <;> cases right <;>
    simp only [exclusiveDisjunction, Int.testBit, Nat.testBit_xor] <;> grind

theorem shiftLeft_eq_mul (number : Int) (amount : Nat) :
    shiftLeft number amount = number * powerOfTwo amount := by
  unfold shiftLeft
  split
  · next zero => rw [zero, Int.zero_mul]
  · rfl

theorem shiftRight_eq_fdiv (number : Int) (amount : Nat) :
    shiftRight number amount = number.fdiv (powerOfTwo amount) := by
  unfold shiftRight
  have positive := powerOfTwo_pos amount
  split
  · next short =>
      have small : number.natAbs < powerOfTwo amount := by
        by_cases zero : number.natAbs = 0
        · omega
        · exact (Nat.log2_lt zero).mp short
      rw [Int.fdiv_eq_ediv_of_nonneg _ (by omega)]
      split
      · next negative => exact (Int.ediv_eq_neg_one_of_neg_of_le negative (by omega)).symm
      · exact (Int.ediv_eq_zero_of_lt (by omega) (by omega)).symm
  · rfl

end Integer

namespace Value

/-- Whether a value is what an integer is held as: it holds the integer, and is a word exactly if
the integer lies between the smallest and the largest word. -/
structure Represents (value : Value) (number : Int) : Prop where
  holds : value.integral? = some number
  compact : (∃ word, value = .integer word) ↔ -2 ^ 63 ≤ number ∧ number < 2 ^ 63

theorem represents_ofInt (number : Int) : (ofInt number).Represents number where
  holds := integral?_ofInt number
  compact := by
    have fits := Integer.fitsWord_iff number
    unfold ofInt
    split
    · next known => exact ⟨fun _ => fits.mp known, fun _ => ⟨_, rfl⟩⟩
    · next unknown =>
        constructor
        · rintro ⟨_, same⟩
          cases same
        · exact fun bounds => absurd (fits.mpr bounds) unknown

/-- Different integers are held as different values. -/
theorem ofInt_inj {number other : Int} : ofInt number = ofInt other ↔ number = other := by
  constructor
  · intro same
    have held := congrArg integral? same
    rw [integral?_ofInt, integral?_ofInt] at held
    exact Option.some.inj held
  · rintro rfl
    rfl

/-- An integer is held in one way. -/
theorem Represents.eq_ofInt {value : Value} {number : Int} (represents : value.Represents number) :
    value = ofInt number := by
  obtain ⟨holds, bounds⟩ := represents
  have compact := bounds.trans (Integer.fitsWord_iff number).symm
  unfold ofInt
  cases value with
  | integer word =>
      cases holds
      rw [if_pos (compact.mp ⟨word, rfl⟩), Int64.ofInt_toInt]
  | big number =>
      cases holds
      rw [if_neg]
      intro fits
      obtain ⟨_, same⟩ := compact.mpr fits
      cases same
  | _ => cases holds

/-- A word is what its number is held as. -/
theorem ofInt_toInt (word : Int64) : ofInt word.toInt = .integer word := by
  have fits := (Integer.fitsWord_iff word.toInt).mpr (Word.toInt_bounds word)
  rw [ofInt, if_pos fits, Int64.ofInt_toInt]

theorem number?_of_integral? {value : Value} {number : Int}
    (holds : value.integral? = some number) : value.number? = some (.integer number) := by
  cases value <;> cases holds <;> rfl

end Value

namespace IntegerOperation

/-- Whether an operation answers an integer in normal form, in every image and on every machine. -/
def Answers (operation : IntegerOperation) (arguments : List Value) (number : Int) : Prop :=
  ∃ value : Value, value.Represents number ∧ ∀ machine image,
    (Primitive.integer operation).run machine arguments image = .ok value image

/-- Whether an operation answers whether something is true. -/
def Decides (operation : IntegerOperation) (arguments : List Value) (statement : Prop) : Prop :=
  ∃ truth : Bool, (truth = true ↔ statement) ∧ ∀ machine image,
    (Primitive.integer operation).run machine arguments image = .ok (.boolean truth) image

/-- Whether an operation fails. -/
def Fails (operation : IntegerOperation) (arguments : List Value) (failure : Failure) : Prop :=
  ∀ machine image, (Primitive.integer operation).run machine arguments image =
    .error (.failed { failure, backtrace := #[] }) image

variable {operation : IntegerOperation} {arguments : List Value}

theorem run_eq_conclude (settled : operation ≠ .atRandom) (machine : Machine) :
    (Primitive.integer operation).run machine arguments =
      (Primitive.integer operation).conclude (operation.reply arguments) := by
  change operation.run arguments = _
  unfold run
  split
  · exact absurd rfl settled
  · rfl

theorem answers_of_reply {number : Int} (settled : operation ≠ .atRandom)
    (replied : operation.reply arguments = .answer (.ofInt number)) :
    operation.Answers arguments number := by
  refine ⟨_, Value.represents_ofInt number, fun machine image => ?_⟩
  rw [run_eq_conclude settled, replied]
  rfl

theorem decides_of_reply {truth : Bool} {statement : Prop} (settled : operation ≠ .atRandom)
    (replied : operation.reply arguments = .truth truth) (means : truth = true ↔ statement) :
    operation.Decides arguments statement := by
  refine ⟨truth, means, fun machine image => ?_⟩
  rw [run_eq_conclude settled, replied]
  rfl

theorem fails_of_refusal {refusal : Refusal} (settled : operation ≠ .atRandom)
    (replied : operation.reply arguments = .refuse refusal) :
    operation.Fails arguments (.refused (Primitive.integer operation).title refusal) := by
  intro machine image
  rw [run_eq_conclude settled, replied]
  rfl

theorem fails_of_mismatch (settled : operation ≠ .atRandom)
    (replied : operation.reply arguments = .mismatch) :
    operation.Fails arguments (.typeMismatch (Primitive.integer operation).title) := by
  intro machine image
  rw [run_eq_conclude settled, replied]
  rfl

/-! ## One way or the other -/

section Operands

variable {left right : Value} {a b : Int} (leftHolds : left.integral? = some a)

include leftHolds in
/-- An operation on one integer comes to the number that the unbounded operation computes, if the
words do that the operation on words gives. -/
theorem convert?_eq {onWords : Int64 → Option Int64} {exact : Int → Int}
    (sound : ∀ {word result}, word.toInt = a → onWords word = some result →
      result.toInt = exact a) :
    convert? onWords exact left = some (.ofInt (exact a)) := by
  cases left with
  | integer word =>
      cases leftHolds
      simp only [convert?]
      split
      · next result found =>
          have same := sound rfl found
          rw [← same, Value.ofInt_toInt]
      · rfl
  | big number =>
      cases leftHolds
      rfl
  | _ => cases leftHolds

include leftHolds in
theorem answers_absolute : absolute.Answers [left] |a| := by
  have found : convert? Word.magnitude? (fun number => number.natAbs) left =
      some (.ofInt a.natAbs) :=
    convert?_eq leftHolds fun number given => by rw [Word.toInt_magnitude? given, number]
  rw [Int.abs_eq_natAbs]
  refine answers_of_reply (by decide) ?_
  change Reply.ofOption (convert? Word.magnitude? (fun number => number.natAbs) left) = _
  rw [found]
  rfl

include leftHolds in
/-- A shift by an amount that is not negative comes to the number that the unbounded shift
computes. -/
theorem shifted_eq {onWords : Int64 → Nat → Option Int64} {exact : Int → Nat → Int}
    {amount : Int64} (nonnegative : 0 ≤ amount)
    (sound : ∀ {word result} {amount : Nat}, onWords word amount = some result →
      result.toInt = exact word.toInt amount) :
    shifted onWords exact left (.integer amount) =
      .answer (.ofInt (exact a amount.toInt.toNat)) := by
  have found : convert? (onWords · amount.toInt.toNat) (exact · amount.toInt.toNat) left =
      some (.ofInt (exact a amount.toInt.toNat)) :=
    convert?_eq leftHolds fun number given => by rw [sound given, number]
  have accepted : ¬ amount < 0 := Int64.not_lt.mpr nonnegative
  simp only [shifted, if_neg accepted, found]
  rfl

include leftHolds in
theorem answers_shiftLeft {amount : Int64} (nonnegative : 0 ≤ amount) :
    shiftLeft.Answers [left, .integer amount] (a * 2 ^ amount.toInt.toNat) := by
  have exact : Integer.shiftLeft a amount.toInt.toNat = a * 2 ^ amount.toInt.toNat := by
    rw [Integer.shiftLeft_eq_mul]
    simp [powerOfTwo]
  rw [← exact]
  refine answers_of_reply (by decide) (shifted_eq leftHolds nonnegative ?_)
  intro word result amount given
  rw [Word.toInt_shiftLeft? given, Integer.shiftLeft_eq_mul]

include leftHolds in
theorem answers_shiftRight {amount : Int64} (nonnegative : 0 ≤ amount) :
    shiftRight.Answers [left, .integer amount] ⌊(a : ℚ) / 2 ^ amount.toInt.toNat⌋ := by
  have exact : Integer.shiftRight a amount.toInt.toNat =
      ⌊(a : ℚ) / 2 ^ amount.toInt.toNat⌋ := by
    rw [Integer.shiftRight_eq_fdiv, Integer.fdiv_eq_floor]
    simp [powerOfTwo]
  rw [← exact]
  refine answers_of_reply (by decide) ?_
  change shifted (fun word amount => some (Word.shiftRight word amount)) Integer.shiftRight left
    (.integer amount) = _
  refine shifted_eq leftHolds nonnegative ?_
  intro word result amount given
  rw [← Option.some.inj given, Word.toInt_shiftRight, Integer.shiftRight_eq_fdiv]

/-- Nothing is shifted by a negative amount. -/
theorem fails_of_negative {amount : Int64} (negative : amount < 0) {operation : IntegerOperation}
    (shifts : operation ∈ [shiftLeft, shiftRight]) (left : Value) :
    operation.Fails [left, .integer amount]
      (.refused (Primitive.integer operation).title .negativeShift) := by
  simp only [List.mem_cons, List.not_mem_nil, or_false] at shifts
  rcases shifts with rfl | rfl
  · exact fails_of_refusal (by decide) (if_pos negative)
  · exact fails_of_refusal (by decide) (if_pos negative)

/-- Nothing is shifted by an amount that is not a word. -/
theorem fails_of_big (amount : Int) {operation : IntegerOperation}
    (shifts : operation ∈ [shiftLeft, shiftRight]) (left : Value) :
    operation.Fails [left, .big amount]
      (.typeMismatch (Primitive.integer operation).title) := by
  simp only [List.mem_cons, List.not_mem_nil, or_false] at shifts
  rcases shifts with rfl | rfl
  · exact fails_of_mismatch (by decide) rfl
  · exact fails_of_mismatch (by decide) rfl

variable (rightHolds : right.integral? = some b)
include leftHolds rightHolds

/-- The same of an operation on two integers. -/
theorem combine?_eq {onWords : Int64 → Int64 → Option Int64} {exact : Int → Int → Int}
    (sound : ∀ {first second result}, first.toInt = a → second.toInt = b →
      onWords first second = some result → result.toInt = exact a b) :
    combine? onWords exact left right = some (.ofInt (exact a b)) := by
  unfold combine?
  split
  · next first second =>
      cases leftHolds
      cases rightHolds
      split
      · next result found =>
          have same := sound rfl rfl found
          rw [← same, Value.ofInt_toInt]
      · rfl
  · rw [leftHolds, rightHolds]

theorem answers_plus : plus.Answers [left, right] (a + b) := by
  refine answers_of_reply (by decide) ?_
  change sum left right = _
  have found : combine? Word.sum? (· + ·) left right = some (.ofInt (a + b)) :=
    combine?_eq leftHolds rightHolds fun first second given => by
      rw [Word.toInt_sum? given, first, second]
  simp only [sum, found]

/-- An operation that has doubles stand in for integers has none to take for two integers. -/
theorem arithmetic_eq {onWords : Int64 → Int64 → Option Int64} {exact : Int → Int → Int}
    (inexact : Double → Double → Double)
    (sound : ∀ {first second result}, first.toInt = a → second.toInt = b →
      onWords first second = some result → result.toInt = exact a b) :
    arithmetic onWords exact inexact left right = .answer (.ofInt (exact a b)) := by
  have found := combine?_eq leftHolds rightHolds sound
  simp only [arithmetic, found]

theorem answers_minus : minus.Answers [left, right] (a - b) := by
  refine answers_of_reply (by decide) (arithmetic_eq leftHolds rightHolds _ ?_)
  intro first second result firstNumber secondNumber given
  rw [Word.toInt_difference? given, firstNumber, secondNumber]

theorem answers_times : times.Answers [left, right] (a * b) := by
  refine answers_of_reply (by decide) (arithmetic_eq leftHolds rightHolds _ ?_)
  intro first second result firstNumber secondNumber given
  rw [Word.toInt_product? given, firstNumber, secondNumber]

theorem answers_quotient (nonzero : b ≠ 0) :
    quotient.Answers [left, right] ⌊(a : ℚ) / b⌋ := by
  rw [← Integer.floorQuotient_eq_floor a nonzero]
  refine answers_of_reply (by decide) ?_
  change floorQuotient left right = _
  rw [floorQuotient, rightHolds, if_neg (by simpa using nonzero)]
  refine arithmetic_eq leftHolds rightHolds _ ?_
  intro first second result firstNumber secondNumber given
  rw [Word.toInt_floorQuotient? given, firstNumber, secondNumber]

/-- A remainder is computed if the divisor is not zero. -/
theorem divided_eq {onWords : Int64 → Int64 → Int64} {exact : Int → Int → Int} (nonzero : b ≠ 0)
    (sound : ∀ {first second : Int64}, second ≠ 0 →
      (onWords first second).toInt = exact first.toInt second.toInt) :
    divided onWords exact left right = .answer (.ofInt (exact a b)) := by
  have found : combine? (fun first second => some (onWords first second)) exact left right =
      some (.ofInt (exact a b)) := by
    refine combine?_eq leftHolds rightHolds ?_
    intro first second result firstNumber secondNumber given
    have apart : second ≠ 0 := fun zero =>
      nonzero (secondNumber.symm.trans (Word.toInt_eq_zero.mpr zero))
    rw [← Option.some.inj given, sound apart, firstNumber, secondNumber]
  have divisor : ¬(left.integral?.isSome = true ∧ right.integral? = some 0) := by
    rw [rightHolds]
    exact fun zero => nonzero (Option.some.inj zero.2)
  rw [divided, if_neg divisor, found]
  rfl

theorem answers_modulo (nonzero : b ≠ 0) :
    modulo.Answers [left, right] (a - b * ⌊(a : ℚ) / b⌋) := by
  have exact : Integer.floorRemainder a b = a - b * ⌊(a : ℚ) / b⌋ := by
    rw [Integer.floorRemainder, Integer.floorQuotient_eq_floor a nonzero, Int.mul_comm]
  rw [← exact]
  exact answers_of_reply (by decide)
    (divided_eq leftHolds rightHolds nonzero Word.toInt_floorRemainder)

theorem answers_remainder (nonzero : b ≠ 0) : remainder.Answers [left, right] (a.tmod b) :=
  answers_of_reply (by decide)
    (divided_eq leftHolds rightHolds nonzero Word.toInt_truncatedRemainder)

/-- Nothing is divided by zero. -/
theorem fails_of_zero (zero : b = 0) {operation : IntegerOperation}
    (divides : operation ∈ [quotient, modulo, remainder]) :
    operation.Fails [left, right]
      (.refused (Primitive.integer operation).title .divisionByZero) := by
  subst zero
  have both : left.integral?.isSome = true ∧ right.integral? = some 0 := by
    rw [leftHolds, rightHolds]
    exact ⟨rfl, rfl⟩
  simp only [List.mem_cons, List.not_mem_nil, or_false] at divides
  rcases divides with rfl | rfl | rfl
  · exact fails_of_refusal (by decide) (if_pos rightHolds)
  · exact fails_of_refusal (by decide) (if_pos both)
  · exact fails_of_refusal (by decide) (if_pos both)

theorem bitwise_eq {onWords : Int64 → Int64 → Int64} {exact : Int → Int → Int}
    (sound : ∀ first second : Int64,
      (onWords first second).toInt = exact first.toInt second.toInt) :
    bitwise onWords exact left right = .answer (.ofInt (exact a b)) := by
  have found : combine? (fun first second => some (onWords first second)) exact left right =
      some (.ofInt (exact a b)) := by
    refine combine?_eq leftHolds rightHolds ?_
    intro first second result firstNumber secondNumber given
    rw [← Option.some.inj given, sound, firstNumber, secondNumber]
  rw [bitwise, found]
  rfl

theorem answers_conjunction : conjunction.Answers [left, right] (Integer.conjunction a b) :=
  answers_of_reply (by decide) (bitwise_eq leftHolds rightHolds Word.toInt_and)

theorem answers_exclusiveDisjunction :
    exclusiveDisjunction.Answers [left, right] (Integer.exclusiveDisjunction a b) :=
  answers_of_reply (by decide) (bitwise_eq leftHolds rightHolds Word.toInt_xor)

/-- Comparing integers is comparing their numbers. -/
theorem comparison_eq (expected : Ordering → Bool) :
    comparison expected left right = .truth (expected (compare a b)) := by
  simp only [comparison, Value.number?_of_integral? leftHolds,
    Value.number?_of_integral? rightHolds, Number.compare?]

theorem equalNumbers_eq : equalNumbers left right = decide (a = b) := by
  simp only [equalNumbers, Value.number?_of_integral? leftHolds,
    Value.number?_of_integral? rightHolds, Number.compare?]
  grind [Int.compare_eq_eq]

end Operands

end IntegerOperation

open IntegerOperation

/-- Integer arithmetic is exact, and its results are in normal form.  Let two values hold integers,
as words or as big integers of whatever size.  Sums, differences, products and absolute values are
the numbers themselves, and conjunctions and exclusive disjunctions have the bits that two's
complement of unbounded width says.  A quotient is rounded down, the one remainder belongs to this
quotient and the other one to the truncated quotient; division by zero is refused, and nothing else
is.  Shifts multiply by a power of two, or divide by it rounding down, for every amount that is not
negative; an amount is always a word.  Comparisons follow the order of the integers.  Each answer is
a word exactly if there is a word for the number, so that it depends on the numbers alone.

Nothing overflows on the way: the operations on words that must not be run where they have no result
ask for a proof that there is one. -/
theorem integer_arithmetic_exact {left right : Value} {a b : Int}
    (leftHolds : left.integral? = some a) (rightHolds : right.integral? = some b) :
    (plus.Answers [left, right] (a + b) ∧ minus.Answers [left, right] (a - b) ∧
      times.Answers [left, right] (a * b) ∧ absolute.Answers [left] |a|) ∧
    ((∃ both : Int, (∀ index, both.testBit index = (a.testBit index && b.testBit index)) ∧
        conjunction.Answers [left, right] both) ∧
      ∃ either : Int, (∀ index, either.testBit index = (a.testBit index ^^ b.testBit index)) ∧
        exclusiveDisjunction.Answers [left, right] either) ∧
    ((b ≠ 0 → quotient.Answers [left, right] ⌊(a : ℚ) / b⌋ ∧
        modulo.Answers [left, right] (a - b * ⌊(a : ℚ) / b⌋) ∧
        remainder.Answers [left, right] (a.tmod b)) ∧
      (b = 0 → ∀ operation ∈ [quotient, modulo, remainder], operation.Fails [left, right]
        (.refused (Primitive.integer operation).title .divisionByZero)) ∧
      Refusal.divisionByZero.message = "division by zero") ∧
    ((∀ amount : Int64, 0 ≤ amount →
        shiftLeft.Answers [left, .integer amount] (a * 2 ^ amount.toInt.toNat) ∧
        shiftRight.Answers [left, .integer amount] ⌊(a : ℚ) / 2 ^ amount.toInt.toNat⌋) ∧
      ∀ operation ∈ [shiftLeft, shiftRight],
        (∀ amount : Int64, amount < 0 → operation.Fails [left, .integer amount]
          (.refused (Primitive.integer operation).title .negativeShift)) ∧
        ∀ amount : Int, operation.Fails [left, .big amount]
          (.typeMismatch (Primitive.integer operation).title)) ∧
    (less.Decides [left, right] (a < b) ∧ lessOrEqual.Decides [left, right] (a ≤ b) ∧
      greater.Decides [left, right] (a > b) ∧ greaterOrEqual.Decides [left, right] (a ≥ b) ∧
      equal.Decides [left, right] (a = b) ∧ unequal.Decides [left, right] (a ≠ b)) ∧
    ∀ (number : Int) (value other : Value), value.Represents number → other.Represents number →
      value = other := by
  refine ⟨⟨?_, ?_, ?_, ?_⟩, ⟨?_, ?_⟩, ⟨?_, ?_, rfl⟩, ⟨?_, ?_⟩, ⟨?_, ?_, ?_, ?_, ?_, ?_⟩, ?_⟩
  · exact answers_plus leftHolds rightHolds
  · exact answers_minus leftHolds rightHolds
  · exact answers_times leftHolds rightHolds
  · exact answers_absolute leftHolds
  · exact ⟨_, Integer.testBit_conjunction a b, answers_conjunction leftHolds rightHolds⟩
  · exact ⟨_, Integer.testBit_exclusiveDisjunction a b,
      answers_exclusiveDisjunction leftHolds rightHolds⟩
  · exact fun nonzero => ⟨answers_quotient leftHolds rightHolds nonzero,
      answers_modulo leftHolds rightHolds nonzero, answers_remainder leftHolds rightHolds nonzero⟩
  · exact fun zero _ divides => fails_of_zero leftHolds rightHolds zero divides
  · exact fun amount nonnegative =>
      ⟨answers_shiftLeft leftHolds nonnegative, answers_shiftRight leftHolds nonnegative⟩
  · exact fun operation shifts => ⟨fun amount negative => fails_of_negative negative shifts left,
      fun amount => fails_of_big amount shifts left⟩
  · exact decides_of_reply (by decide) (comparison_eq leftHolds rightHolds _)
      (by rw [Ordering.isLT_iff_eq_lt, Int.compare_eq_lt])
  · exact decides_of_reply (by decide) (comparison_eq leftHolds rightHolds _)
      (by rw [Int.isLE_compare])
  · exact decides_of_reply (by decide) (comparison_eq leftHolds rightHolds _)
      (by rw [Ordering.isGT_iff_eq_gt, Int.compare_eq_gt])
  · exact decides_of_reply (by decide) (comparison_eq leftHolds rightHolds _)
      (by rw [Int.isGE_compare])
  · exact decides_of_reply (by decide)
      (congrArg Reply.truth (equalNumbers_eq leftHolds rightHolds)) decide_eq_true_iff
  · refine decides_of_reply (by decide)
      (congrArg (fun truth => Reply.truth !truth) (equalNumbers_eq leftHolds rightHolds)) ?_
    simp
  · exact fun number value other represents representsToo =>
      represents.eq_ofInt.trans representsToo.eq_ofInt.symm

/-- The smallest word divided by the opposite of one, held as a big integer although it is small, is
the one quotient of words that is not a word.  The remainder is zero. -/
theorem integer_arithmetic_exact_corner :
    quotient.Answers [.integer Int64.minValue, .big (-1)] 9223372036854775808 ∧
      modulo.Answers [.integer Int64.minValue, .big (-1)] 0 := by
  have exact := @integer_arithmetic_exact (.integer Int64.minValue) (.big (-1))
    (-9223372036854775808) (-1) rfl rfl
  obtain ⟨quotient, modulo, -⟩ := exact.2.2.1.1 (by decide)
  have rounded : ⌊((-9223372036854775808 : Int) : ℚ) / ((-1 : Int) : ℚ)⌋ =
      9223372036854775808 := by
    rw [← Integer.fdiv_eq_floor]
    decide
  rw [rounded] at quotient modulo
  exact ⟨quotient, modulo⟩

end MessageMachine
