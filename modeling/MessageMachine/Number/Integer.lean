import MessageMachine.Number.Power

/-!
# Integers and their texts

Integers are unbounded; a 64-bit word is only the compact way to hold one that fits.  This module
fixes which integers fit, how integers are written and read in decimal, the bitwise operations on
the two's complement form of unbounded width, the shifts, and the square root rounded down.
-/

namespace MessageMachine

namespace Integer

/-- Whether an integer fits into a signed 64-bit word. -/
def fitsWord (number : Int) : Bool :=
  decide (-(powerOfTwo 63 : Int) ≤ number) && decide (number < powerOfTwo 63)

/-- The integers that fit are those between the smallest and the largest word. -/
theorem fitsWord_iff (number : Int) :
    fitsWord number = true ↔
      -9223372036854775808 ≤ number ∧ number < 9223372036854775808 := by
  have word : (powerOfTwo 63 : Int) = 9223372036854775808 := by decide
  simp [fitsWord, word]

/-- The character of a decimal digit. -/
def digitCharacter (digit : Nat) : Char :=
  Char.ofNat (48 + digit)

/-- Write the decimal digits of a number in front of some characters. -/
def digitsOnto (number : Nat) (rest : List Char) : List Char :=
  if number < 10 then digitCharacter number :: rest
  else digitsOnto (number / 10) (digitCharacter (number % 10) :: rest)
termination_by number
decreasing_by omega

/-- The decimal digits of a natural number, the most significant first. -/
def digits (number : Nat) : List Char :=
  digitsOnto number []

/-- The decimal text of an integer: a minus sign for negative ones, no leading zeros. -/
def text (number : Int) : String :=
  if number < 0 then String.ofList ('-' :: digits number.natAbs)
  else String.ofList (digits number.natAbs)

/-- Why a text is not an integer. -/
inductive ReadingError
  /-- There is nothing after the sign. -/
  | empty
  /-- A character is not a digit. -/
  | invalidDigit
  /-- The number does not fit into a machine word. -/
  | tooLarge
deriving DecidableEq, Repr

/-- The wording of a reading error. -/
def ReadingError.message : ReadingError → String
  | .empty => "cannot parse integer from empty string"
  | .invalidDigit => "invalid digit found in string"
  | .tooLarge => "number too large to fit in target type"

/-- The value of a decimal digit. -/
def digitValue? (character : Char) : Option Nat :=
  if '0' ≤ character ∧ character ≤ '9' then some (character.toNat - 48) else none

/-- Continue reading digits after a number; underscores separate groups of digits. -/
def readDigits (number : Nat) : List Char → Except ReadingError Nat
  | [] => .ok number
  | '_' :: rest => readDigits number rest
  | character :: rest =>
      match digitValue? character with
      | some digit => readDigits (10 * number + digit) rest
      | none => .error .invalidDigit

/-- Read a number without a sign: it starts with a digit. -/
def readUnsigned : List Char → Except ReadingError Nat
  | [] => .error .empty
  | '_' :: _ => .error .invalidDigit
  | characters => readDigits 0 characters

/-- Read an integer of any size: at most one sign, then digits. -/
def read (text : String) : Except ReadingError Int :=
  match text.toList with
  | '-' :: rest => (readUnsigned rest).map fun number => -(number : Int)
  | '+' :: rest => (readUnsigned rest).map fun number => (number : Int)
  | characters => (readUnsigned characters).map fun number => (number : Int)

/-- Continue reading a number that must stay below a limit. -/
def readDigitsBelow (limit number : Nat) : List Char → Except ReadingError Nat
  | [] => .ok number
  | character :: rest =>
      match digitValue? character with
      | some digit =>
          if 10 * number + digit < limit then readDigitsBelow limit (10 * number + digit) rest
          else .error .tooLarge
      | none => .error .invalidDigit

/-- Read an unsigned 64-bit number: an optional plus sign, then digits without separators.  The
first character that is wrong or makes the number too large decides the error. -/
def readWord (text : String) : Except ReadingError Nat :=
  match text.toList with
  | [] => .error .empty
  | ['+'] => .error .invalidDigit
  | '+' :: rest => readDigitsBelow (powerOfTwo 64) 0 rest
  | characters => readDigitsBelow (powerOfTwo 64) 0 characters

/-- A quotient rounded down.  Truncation has rounded up if there is a remainder and the signs
differ. -/
def floorQuotient (dividend divisor : Int) : Int :=
  if dividend.tmod divisor = 0 ∨ decide (dividend < 0) = decide (divisor < 0) then
    dividend.tdiv divisor
  else dividend.tdiv divisor - 1

/-- The remainder that belongs to the quotient rounded down. -/
def floorRemainder (dividend divisor : Int) : Int :=
  dividend - floorQuotient dividend divisor * divisor

/-- Bitwise conjunction in two's complement of unbounded width.  The bits of `-(n + 1)` are the
complements of the bits of `n`. -/
def conjunction : Int → Int → Int
  | .ofNat left, .ofNat right => .ofNat (left &&& right)
  | .ofNat left, .negSucc right => .ofNat (left ^^^ (left &&& right))
  | .negSucc left, .ofNat right => .ofNat (right ^^^ (left &&& right))
  | .negSucc left, .negSucc right => .negSucc (left ||| right)

/-- Bitwise exclusive disjunction in two's complement of unbounded width: complementing one
operand complements the result. -/
def exclusiveDisjunction : Int → Int → Int
  | .ofNat left, .ofNat right => .ofNat (left ^^^ right)
  | .ofNat left, .negSucc right => .negSucc (left ^^^ right)
  | .negSucc left, .ofNat right => .negSucc (left ^^^ right)
  | .negSucc left, .negSucc right => .ofNat (left ^^^ right)

/-- Multiply by a power of two.  Zero stays zero whatever the power, without computing it. -/
def shiftLeft (number : Int) (amount : Nat) : Int :=
  if number = 0 then 0 else number * powerOfTwo amount

/-- Divide by a power of two, rounding down.  An amount beyond the size of the number leaves only
its sign, so the power itself is never computed for such amounts. -/
def shiftRight (number : Int) (amount : Nat) : Int :=
  if number.natAbs.log2 < amount then (if number < 0 then -1 else 0)
  else number.fdiv (powerOfTwo amount)

/-- Write the digits of a number in base four in front of some digits. -/
def quaternaryOnto (number : Nat) (rest : List Nat) : List Nat :=
  if number < 4 then number :: rest
  else quaternaryOnto (number / 4) (number % 4 :: rest)
termination_by number
decreasing_by omega

/-- A square root rounded down, with what the number has beyond the square. -/
structure Root where
  /-- The root. -/
  root : Nat
  /-- The number less the square of the root. -/
  remainder : Nat
deriving DecidableEq, Repr

/-- The number whose root it is. -/
def Root.number (root : Root) : Nat :=
  root.root * root.root + root.remainder

/-- One more digit in base four gives one more binary digit of the root.  The new digit is one
exactly if the remainder has room for the difference of the two squares. -/
def Root.extend (root : Root) (digit : Nat) : Root :=
  let remainder := 4 * root.remainder + digit
  let difference := 4 * root.root + 1
  if difference ≤ remainder then ⟨2 * root.root + 1, remainder - difference⟩
  else ⟨2 * root.root, remainder⟩

/-- The largest number whose square is at most the given one. -/
def floorRoot (number : Nat) : Nat :=
  ((quaternaryOnto number []).foldl Root.extend ⟨0, 0⟩).root

/-- Extending a root appends the digit to its number. -/
theorem Root.number_extend (root : Root) (digit : Nat) :
    (root.extend digit).number = 4 * root.number + digit := by
  by_cases room : 4 * root.root + 1 ≤ 4 * root.remainder + digit
  · simp only [extend, number, room, if_true]
    grind
  · simp only [extend, number, room, if_false]
    grind

/-- A remainder that leaves no room for a larger root leaves none after a digit in base four. -/
theorem Root.remainder_extend_le (root : Root) {digit : Nat} (digitBound : digit < 4)
    (bound : root.remainder ≤ 2 * root.root) :
    (root.extend digit).remainder ≤ 2 * (root.extend digit).root := by
  by_cases room : 4 * root.root + 1 ≤ 4 * root.remainder + digit
  · simp only [extend, room, if_true]
    omega
  · simp only [extend, room, if_false]
    omega

/-- Extending by the digits of a number, and then by others, is extending by the others after
the number itself has been appended. -/
theorem foldl_extend_quaternaryOnto (number : Nat) (rest : List Nat) :
    ∃ root : Root, root.number = number ∧ root.remainder ≤ 2 * root.root ∧
      (quaternaryOnto number rest).foldl Root.extend ⟨0, 0⟩ = rest.foldl Root.extend root := by
  fun_induction quaternaryOnto number rest with
  | case1 number rest small =>
      refine ⟨Root.extend ⟨0, 0⟩ number, ?_, ?_, rfl⟩
      · rw [Root.number_extend]
        simp [Root.number]
      · exact Root.remainder_extend_le _ small (by simp)
  | case2 number rest _ inductionHypothesis =>
      obtain ⟨root, numberEq, bound, foldEq⟩ := inductionHypothesis
      refine ⟨root.extend (number % 4), ?_, ?_, foldEq⟩
      · rw [Root.number_extend, numberEq]
        omega
      · exact root.remainder_extend_le (by omega) bound

/-- The root rounded down is the number whose square is reached and whose successor's is not. -/
theorem floorRoot_bounds (number : Nat) :
    floorRoot number * floorRoot number ≤ number ∧
      number < (floorRoot number + 1) * (floorRoot number + 1) := by
  obtain ⟨root, numberEq, bound, foldEq⟩ := foldl_extend_quaternaryOnto number []
  have rootEq : floorRoot number = root.root := by
    simp [floorRoot, foldEq]
  rw [rootEq, ← numberEq, Root.number]
  grind

end Integer

end MessageMachine
