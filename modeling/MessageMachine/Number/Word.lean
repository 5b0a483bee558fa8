import MessageMachine.Number.Integer

/-!
# Arithmetic of words

A machine word is a signed number of 64 bits, and not every result of an operation on words is one.
An operation whose result may be missing is *checked*: it gives a word only if the word is the
result.  The others must not be run where they have no result.  They ask for a proof that there is
one, so whoever computes with words has to say why nothing overflows.
-/

namespace MessageMachine

namespace Word

/-- Whether one word can be divided by another: the divisor is not zero, and the quotient is not
the one number that lies just beyond the largest word. -/
structure Divides (divisor dividend : Int64) : Prop where
  nonzero : divisor ≠ 0
  inside : ¬(dividend = Int64.minValue ∧ divisor = -1)

instance (divisor dividend : Int64) : Decidable (Divides divisor dividend) :=
  decidable_of_iff (divisor ≠ 0 ∧ ¬(dividend = Int64.minValue ∧ divisor = -1))
    ⟨fun ⟨nonzero, inside⟩ => ⟨nonzero, inside⟩, fun ⟨nonzero, inside⟩ => ⟨nonzero, inside⟩⟩

/-! ## Operations that must have a result -/

/-- The sum of two words. -/
def sum (left right : Int64)
    (_ : ¬left.toBitVec.saddOverflow right.toBitVec) : Int64 :=
  left + right

/-- The difference of two words. -/
def difference (left right : Int64)
    (_ : ¬left.toBitVec.ssubOverflow right.toBitVec) : Int64 :=
  left - right

/-- The quotient of two words, truncated. -/
def quotient (dividend divisor : Int64) (_ : Divides divisor dividend) : Int64 :=
  dividend / divisor

/-- The remainder of two words.  It has the sign of the dividend. -/
def remainder (dividend divisor : Int64) (_ : Divides divisor dividend) : Int64 :=
  dividend % divisor

/-- The bits of a word moved up, by less than its width.  What is moved out is lost. -/
def shiftUp (word : Int64) (amount : Nat) (_ : amount < 64) : Int64 :=
  .ofBitVec (word.toBitVec <<< amount)

/-- The bits of a word moved down, by less than its width.  The sign moves in from above. -/
def shiftDown (word : Int64) (amount : Nat) (_ : amount < 64) : Int64 :=
  .ofBitVec (word.toBitVec.sshiftRight amount)

theorem toInt_sum {left right : Int64} (inside : ¬left.toBitVec.saddOverflow right.toBitVec) :
    (sum left right inside).toInt = left.toInt + right.toInt :=
  BitVec.toInt_add_of_not_saddOverflow inside

theorem toInt_difference {left right : Int64}
    (inside : ¬left.toBitVec.ssubOverflow right.toBitVec) :
    (difference left right inside).toInt = left.toInt - right.toInt :=
  BitVec.toInt_sub_of_not_ssubOverflow inside

theorem toInt_quotient {dividend divisor : Int64} (divides : Divides divisor dividend) :
    (quotient dividend divisor divides).toInt = dividend.toInt.tdiv divisor.toInt := by
  by_cases smallest : dividend = Int64.minValue
  · exact Int64.toInt_div_of_ne_right _ _ fun opposite => divides.inside ⟨smallest, opposite⟩
  · exact Int64.toInt_div_of_ne_left _ _ smallest

theorem toInt_remainder {dividend divisor : Int64} (divides : Divides divisor dividend) :
    (remainder dividend divisor divides).toInt = dividend.toInt.tmod divisor.toInt :=
  Int64.toInt_mod _ _

theorem toInt_shiftDown (word : Int64) {amount : Nat} (small : amount < 64) :
    (shiftDown word amount small).toInt = word.toInt.fdiv (powerOfTwo amount) := by
  have positive := powerOfTwo_pos amount
  rw [Int.fdiv_eq_ediv_of_nonneg _ (by omega)]
  exact BitVec.toInt_sshiftRight.trans (Int.shiftRight_eq_div_pow _ _)

/-- A word is zero when its number is. -/
theorem toInt_eq_zero {word : Int64} : word.toInt = 0 ↔ word = 0 :=
  ⟨fun zero => Int64.toInt_inj.mp zero, fun zero => zero ▸ rfl⟩

/-- Numbers of words lie between the smallest and the largest. -/
theorem toInt_bounds (word : Int64) :
    -9223372036854775808 ≤ word.toInt ∧ word.toInt < 9223372036854775808 :=
  ⟨word.le_toInt, word.toInt_lt⟩

/-! ## Why rounding down stays among the words -/

/-- A division that leaves a remainder halves the dividend at least, so that the quotient has a
predecessor. -/
theorem quotient_has_predecessor {dividend divisor : Int64} (divides : Divides divisor dividend)
    (uneven : remainder dividend divisor divides ≠ 0) :
    ¬(quotient dividend divisor divides).toBitVec.ssubOverflow (1 : Int64).toBitVec := by
  have rest : dividend.toInt.tmod divisor.toInt ≠ 0 := by
    rw [← toInt_remainder divides]
    exact fun zero => uneven (toInt_eq_zero.mp zero)
  have large : 2 ≤ divisor.toInt.natAbs := by
    have nonzero : divisor.toInt ≠ 0 := fun zero => divides.nonzero (toInt_eq_zero.mp zero)
    rcases Nat.lt_or_ge divisor.toInt.natAbs 2 with small | large
    · have unit : divisor.toInt = 1 ∨ divisor.toInt = -1 := by omega
      rcases unit with unit | unit <;> simp [unit] at rest
    · exact large
  have halved : (dividend.toInt.tdiv divisor.toInt).natAbs ≤ dividend.toInt.natAbs / 2 := by
    rw [Int.natAbs_tdiv]
    exact Nat.div_le_div_left large (by decide)
  have bounds := toInt_bounds dividend
  have exact := toInt_quotient divides
  have one : (1 : Int64).toBitVec.toInt = 1 := by decide
  have word : (quotient dividend divisor divides).toBitVec.toInt =
      (quotient dividend divisor divides).toInt := rfl
  simp only [BitVec.ssubOverflow, one, word, exact]
  simp only [ge_iff_le, Bool.or_eq_true, decide_eq_true_eq, not_or]
  omega

/-- A remainder and a divisor of different signs have a sum between the two. -/
theorem remainder_completes {dividend divisor : Int64} (divides : Divides divisor dividend)
    (uneven : remainder dividend divisor divides ≠ 0 ∧
      (remainder dividend divisor divides).toInt.sign ≠ divisor.toInt.sign) :
    ¬(remainder dividend divisor divides).toBitVec.saddOverflow divisor.toBitVec := by
  have opposite := uneven.2
  generalize remainder dividend divisor divides = rest at opposite
  have notBothPositive : ¬(0 < rest.toInt ∧ 0 < divisor.toInt) := by
    rintro ⟨positive, positive'⟩
    exact opposite (by rw [Int.sign_eq_one_of_pos positive, Int.sign_eq_one_of_pos positive'])
  have notBothNegative : ¬(rest.toInt < 0 ∧ divisor.toInt < 0) := by
    rintro ⟨negative, negative'⟩
    exact opposite (by
      rw [Int.sign_eq_neg_one_of_neg negative, Int.sign_eq_neg_one_of_neg negative'])
  have restBounds := toInt_bounds rest
  have divisorBounds := toInt_bounds divisor
  simp only [BitVec.saddOverflow, Int64.toInt_toBitVec, ge_iff_le, Bool.or_eq_true,
    decide_eq_true_eq, not_or]
  omega

/-! ## Checked operations -/

/-- The sum of two words, if it is a word. -/
def sum? (left right : Int64) : Option Int64 :=
  if inside : ¬left.toBitVec.saddOverflow right.toBitVec then some (sum left right inside)
  else none

/-- The difference of two words, if it is a word. -/
def difference? (left right : Int64) : Option Int64 :=
  if inside : ¬left.toBitVec.ssubOverflow right.toBitVec then some (difference left right inside)
  else none

/-- The product of two words, if it is a word. -/
def product? (left right : Int64) : Option Int64 :=
  if left.toBitVec.smulOverflow right.toBitVec then none else some (left * right)

/-- The absolute value of a word, if it is a word. -/
def magnitude? (word : Int64) : Option Int64 :=
  if word = Int64.minValue then none else some word.abs

/-- The quotient of two words rounded down, if it is a word.  Truncation has rounded up if there is
a remainder and the signs differ. -/
def floorQuotient? (dividend divisor : Int64) : Option Int64 :=
  if divides : Divides divisor dividend then
    if uneven : remainder dividend divisor divides ≠ 0 ∧
        decide (dividend < 0) ≠ decide (divisor < 0) then
      some (difference (quotient dividend divisor divides) 1
        (quotient_has_predecessor divides uneven.1))
    else some (quotient dividend divisor divides)
  else none

/-- The remainder that belongs to the quotient rounded down: it has the sign of the divisor.  The
smallest word divides evenly by the opposite of one, although the quotient is no word. -/
def floorRemainder (dividend divisor : Int64) : Int64 :=
  if divides : Divides divisor dividend then
    if uneven : remainder dividend divisor divides ≠ 0 ∧
        (remainder dividend divisor divides).toInt.sign ≠ divisor.toInt.sign then
      sum (remainder dividend divisor divides) divisor (remainder_completes divides uneven)
    else remainder dividend divisor divides
  else 0

/-- The remainder that belongs to the truncated quotient. -/
def truncatedRemainder (dividend divisor : Int64) : Int64 :=
  if divides : Divides divisor dividend then remainder dividend divisor divides else 0

/-- A word multiplied by a power of two, if the product is a word.  Nothing was moved out if moving
back restores the word. -/
def shiftLeft? (word : Int64) (amount : Nat) : Option Int64 :=
  if small : amount < 64 then
    if shiftDown (shiftUp word amount small) amount small = word then
      some (shiftUp word amount small)
    else none
  else none

/-- A word divided by a power of two, rounded down.  Beyond the width, only the sign is left. -/
def shiftRight (word : Int64) (amount : Nat) : Int64 :=
  if small : amount < 64 then shiftDown word amount small
  else if word < 0 then -1
  else 0

/-! ## A word that an operation gives is its result -/

theorem toInt_sum? {left right word : Int64} (found : sum? left right = some word) :
    word.toInt = left.toInt + right.toInt := by
  unfold sum? at found
  split at found
  · next inside => rw [← Option.some.inj found, toInt_sum inside]
  · contradiction

theorem toInt_difference? {left right word : Int64} (found : difference? left right = some word) :
    word.toInt = left.toInt - right.toInt := by
  unfold difference? at found
  split at found
  · next inside => rw [← Option.some.inj found, toInt_difference inside]
  · contradiction

/-- Only the least word has no predecessor. -/
theorem difference?_one_eq_none_iff {word : Int64} :
    difference? word 1 = none ↔ word = Int64.minValue := by
  have bounds := toInt_bounds word
  have one : (1 : Int64).toBitVec.toInt = 1 := by decide
  have least : Int64.minValue.toInt = -9223372036854775808 := by decide
  have overflows : word.toBitVec.ssubOverflow (1 : Int64).toBitVec = true ↔
      word = Int64.minValue := by
    rw [← Int64.toInt_inj, least]
    simp only [BitVec.ssubOverflow, one, Int64.toInt_toBitVec, Bool.or_eq_true, decide_eq_true_eq]
    omega
  rw [← overflows, difference?]
  simp

theorem toInt_product? {left right word : Int64} (found : product? left right = some word) :
    word.toInt = left.toInt * right.toInt := by
  unfold product? at found
  split at found
  · contradiction
  · next inside =>
      rw [← Option.some.inj found]
      exact BitVec.toInt_mul_of_not_smulOverflow inside

theorem toInt_magnitude? {word magnitude : Int64} (found : magnitude? word = some magnitude) :
    magnitude.toInt = word.toInt.natAbs := by
  unfold magnitude? at found
  split at found
  · contradiction
  · next notSmallest =>
      rw [← Option.some.inj found, ← Int64.toInt_toBitVec, Int64.toBitVec_abs]
      refine BitVec.toInt_abs_eq_natAbs_of_ne_intMin fun smallest => notSmallest ?_
      exact Int64.toBitVec_inj.mp smallest

theorem toInt_floorQuotient? {dividend divisor word : Int64}
    (found : floorQuotient? dividend divisor = some word) :
    word.toInt = Integer.floorQuotient dividend.toInt divisor.toInt := by
  unfold floorQuotient? at found
  split at found
  · next divides =>
      have even : remainder dividend divisor divides = 0 ↔
          dividend.toInt.tmod divisor.toInt = 0 := by
        rw [← toInt_remainder divides, toInt_eq_zero]
      split at found
      · next uneven =>
          simp only [even, Int64.lt_iff_toInt_lt, Int64.toInt_zero, ne_eq] at uneven
          rw [← Option.some.inj found, toInt_difference, toInt_quotient]
          simp only [Integer.floorQuotient, uneven, or_self, if_false]
          rfl
      · next uneven =>
          simp only [ne_eq, even, Int64.lt_iff_toInt_lt, Int64.toInt_zero, not_and,
            Decidable.not_not] at uneven
          rw [← Option.some.inj found, toInt_quotient, Integer.floorQuotient,
            if_pos (Decidable.or_iff_not_imp_left.mpr uneven)]
  · contradiction

/-- Words that do not divide, although the divisor is not zero. -/
theorem eq_minValue_of_not_divides {dividend divisor : Int64} (nonzero : divisor ≠ 0)
    (stuck : ¬Divides divisor dividend) : dividend = Int64.minValue ∧ divisor = -1 := by
  by_cases corner : dividend = Int64.minValue ∧ divisor = -1
  · exact corner
  · exact absurd ⟨nonzero, corner⟩ stuck

theorem toInt_truncatedRemainder {dividend divisor : Int64} (nonzero : divisor ≠ 0) :
    (truncatedRemainder dividend divisor).toInt = dividend.toInt.tmod divisor.toInt := by
  unfold truncatedRemainder
  split
  · exact toInt_remainder _
  · next stuck =>
      obtain ⟨rfl, rfl⟩ := eq_minValue_of_not_divides nonzero stuck
      decide

/-- A remainder that is not zero has the sign of the dividend. -/
theorem sign_remainder {dividend divisor : Int64} (divides : Divides divisor dividend)
    (uneven : remainder dividend divisor divides ≠ 0) :
    (remainder dividend divisor divides).toInt.sign = dividend.toInt.sign := by
  rw [toInt_remainder, Int.sign_tmod, if_neg]
  intro divisible
  apply uneven
  rw [← toInt_eq_zero, toInt_remainder]
  exact Int.tmod_eq_zero_of_dvd divisible

/-- A remainder that is not zero has the sign of the divisor if both numbers are negative or neither
is. -/
theorem sign_remainder_eq_iff {dividend divisor : Int64} (divides : Divides divisor dividend)
    (uneven : remainder dividend divisor divides ≠ 0) :
    (remainder dividend divisor divides).toInt.sign = divisor.toInt.sign ↔
      decide (dividend.toInt < 0) = decide (divisor.toInt < 0) := by
  have divisorNonzero : divisor.toInt ≠ 0 := mt toInt_eq_zero.mp divides.nonzero
  have dividendNonzero : dividend.toInt ≠ 0 := by
    intro zero
    apply uneven
    rw [← toInt_eq_zero, toInt_remainder, zero, Int.zero_tmod]
  rw [sign_remainder divides uneven]
  grind

theorem toInt_floorRemainder {dividend divisor : Int64} (nonzero : divisor ≠ 0) :
    (floorRemainder dividend divisor).toInt =
      Integer.floorRemainder dividend.toInt divisor.toInt := by
  unfold floorRemainder
  split
  · next divides =>
      have even : remainder dividend divisor divides = 0 ↔
          dividend.toInt.tmod divisor.toInt = 0 := by
        rw [← toInt_remainder divides, toInt_eq_zero]
      split
      · next uneven =>
          have signs := uneven.2
          rw [ne_eq, sign_remainder_eq_iff divides uneven.1] at signs
          rw [toInt_sum, toInt_remainder, Integer.floorRemainder, Integer.floorQuotient,
            if_neg (by simp [← even, uneven.1, signs]), Int.tmod_def]
          grind
      · next uneven =>
          have signs : dividend.toInt.tmod divisor.toInt = 0 ∨
              decide (dividend.toInt < 0) = decide (divisor.toInt < 0) := by
            refine Decidable.or_iff_not_imp_left.mpr fun rest => ?_
            rw [← even] at rest
            exact (sign_remainder_eq_iff divides rest).mp
              (Decidable.not_not.mp fun signs => uneven ⟨rest, signs⟩)
          rw [toInt_remainder, Integer.floorRemainder, Integer.floorQuotient, if_pos signs,
            Int.tmod_def, Int.mul_comm]
  · next stuck =>
      obtain ⟨rfl, rfl⟩ := eq_minValue_of_not_divides nonzero stuck
      decide

/-- Bits that are moved up leave a multiple of a power of two. -/
theorem powerOfTwo_dvd_toInt_shiftUp (word : Int64) {amount : Nat} (small : amount < 64) :
    (powerOfTwo amount : Int) ∣ (shiftUp word amount small).toInt := by
  have whole : (powerOfTwo amount : Int) ∣ ((2 ^ 64 : Nat) : Int) :=
    Int.natCast_dvd_natCast.mpr (Nat.pow_dvd_pow 2 (Nat.le_of_lt small))
  have moved : (powerOfTwo amount : Int) ∣ ((word.toBitVec.toNat <<< amount : Nat) : Int) := by
    rw [Nat.shiftLeft_eq]
    exact Int.natCast_dvd_natCast.mpr (Nat.dvd_mul_left _ _)
  show _ ∣ (word.toBitVec <<< amount).toInt
  rw [BitVec.toInt_shiftLeft, Int.bmod_eq_self_sub_mul_bdiv]
  exact Int.dvd_sub moved (Int.dvd_mul_of_dvd_left whole)

theorem toInt_shiftLeft? {word shifted : Int64} {amount : Nat}
    (found : shiftLeft? word amount = some shifted) :
    shifted.toInt = word.toInt * powerOfTwo amount := by
  unfold shiftLeft? at found
  split at found
  · next small =>
      split at found
      · next restored =>
          rw [← Option.some.inj found]
          have back := congrArg Int64.toInt restored
          have positive := powerOfTwo_pos amount
          rw [toInt_shiftDown, Int.fdiv_eq_ediv_of_nonneg _ (by omega)] at back
          rw [← back]
          exact (Int.ediv_mul_cancel (powerOfTwo_dvd_toInt_shiftUp word small)).symm
      · contradiction
  · contradiction

theorem toInt_shiftRight (word : Int64) (amount : Nat) :
    (shiftRight word amount).toInt = word.toInt.fdiv (powerOfTwo amount) := by
  unfold shiftRight
  split
  · next small => exact toInt_shiftDown word small
  · next large =>
      have bounds := toInt_bounds word
      have beyond : 2 ^ 63 ≤ powerOfTwo amount := Nat.pow_le_pow_right (by decide) (by omega)
      rw [Int.fdiv_eq_ediv_of_nonneg _ (by omega)]
      split
      · next negative =>
          rw [Int64.lt_iff_toInt_lt] at negative
          exact (Int.ediv_eq_neg_one_of_neg_of_le negative (by omega)).symm
      · next nonnegative =>
          rw [Int64.lt_iff_toInt_lt] at nonnegative
          exact (Int.ediv_eq_zero_of_lt (Int.not_lt.mp nonnegative) (by omega)).symm

/-- The number of a negative word, through the complement of its bits. -/
theorem toInt_of_negative {word : Int64} (negative : word.toBitVec.msb = true) :
    word.toInt = Int.negSucc (~~~word.toBitVec).toNat := by
  have bound := word.toBitVec.isLt
  rw [← Int64.toInt_toBitVec, BitVec.toInt_eq_msb_cond, if_pos negative, BitVec.toNat_not]
  omega

/-- The number of a word that is not negative. -/
theorem toInt_of_nonnegative {word : Int64} (nonnegative : word.toBitVec.msb = false) :
    word.toInt = Int.ofNat word.toBitVec.toNat :=
  BitVec.toInt_eq_toNat_of_msb nonnegative

/-- A word has as many bits in common with a negative one as it keeps outside the complement. -/
theorem and_eq_xor_and_not (left right : BitVec 64) :
    left &&& right = left ^^^ (left &&& ~~~right) := by
  ext index
  simp only [BitVec.getElem_and, BitVec.getElem_xor, BitVec.getElem_not]
  cases left[index] <;> cases right[index] <;> rfl

theorem toInt_and (left right : Int64) :
    (left &&& right).toInt = Integer.conjunction left.toInt right.toInt := by
  have sign : (left &&& right).toBitVec.msb = (left.toBitVec.msb && right.toBitVec.msb) :=
    BitVec.msb_and
  cases leftSign : left.toBitVec.msb <;> cases rightSign : right.toBitVec.msb <;>
    rw [leftSign, rightSign] at sign
  case false.false =>
      rw [toInt_of_nonnegative sign, toInt_of_nonnegative leftSign, toInt_of_nonnegative rightSign]
      rfl
  case false.true =>
      rw [toInt_of_nonnegative sign, toInt_of_nonnegative leftSign, toInt_of_negative rightSign]
      exact congrArg _ (congrArg BitVec.toNat (and_eq_xor_and_not _ _))
  case true.false =>
      rw [toInt_of_nonnegative sign, toInt_of_negative leftSign, toInt_of_nonnegative rightSign]
      have bits : left.toBitVec &&& right.toBitVec =
          right.toBitVec ^^^ (~~~left.toBitVec &&& right.toBitVec) := by
        rw [BitVec.and_comm, and_eq_xor_and_not, BitVec.and_comm right.toBitVec]
      exact congrArg _ (congrArg BitVec.toNat bits)
  case true.true =>
      rw [toInt_of_negative sign, toInt_of_negative leftSign, toInt_of_negative rightSign]
      exact congrArg _ (congrArg BitVec.toNat BitVec.not_and)

theorem toInt_xor (left right : Int64) :
    (left ^^^ right).toInt = Integer.exclusiveDisjunction left.toInt right.toInt := by
  have sign : (left ^^^ right).toBitVec.msb = (left.toBitVec.msb ^^ right.toBitVec.msb) :=
    BitVec.msb_xor
  cases leftSign : left.toBitVec.msb <;> cases rightSign : right.toBitVec.msb <;>
    rw [leftSign, rightSign] at sign
  case false.false =>
      rw [toInt_of_nonnegative sign, toInt_of_nonnegative leftSign, toInt_of_nonnegative rightSign]
      rfl
  case false.true =>
      rw [toInt_of_negative sign, toInt_of_nonnegative leftSign, toInt_of_negative rightSign]
      exact congrArg _ (congrArg BitVec.toNat BitVec.not_xor_right)
  case true.false =>
      rw [toInt_of_negative sign, toInt_of_negative leftSign, toInt_of_nonnegative rightSign]
      exact congrArg _ (congrArg BitVec.toNat BitVec.not_xor_left)
  case true.true =>
      rw [toInt_of_nonnegative sign, toInt_of_negative leftSign, toInt_of_negative rightSign]
      have bits : left.toBitVec ^^^ right.toBitVec = ~~~left.toBitVec ^^^ ~~~right.toBitVec := by
        rw [← BitVec.not_xor_left, ← BitVec.not_xor_right, BitVec.not_not]
      exact congrArg _ (congrArg BitVec.toNat bits)

end Word

end MessageMachine
