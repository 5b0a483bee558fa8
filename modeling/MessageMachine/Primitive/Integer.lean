import MessageMachine.Number.Word
import MessageMachine.Primitive.Reply

/-!
# Operations of integers

Arithmetic is exact and its results are in normal form, so that the reply depends on the numbers
alone and not on how they were held.  Words are computed with as words for as long as the result is
one; all other integers go through unbounded arithmetic.  With a double as the other operand, the
operation is that of doubles.
-/

namespace MessageMachine

namespace IntegerOperation

/-- An operation on one integer.  A word goes through the operation on words; without a result
there, and for a big integer, the operation is the unbounded one. -/
def convert? (onWords : Int64 → Option Int64) (exact : Int → Int) : Value → Option Value
  | .integer word =>
      match onWords word with
      | some result => some (.integer result)
      | none => some (.ofInt (exact word.toInt))
  | .big number => some (.ofInt (exact number))
  | _ => none

/-- An operation on two integers.  Two words go through the operation on words; without a result
there, and if one of the integers is big, the operation is the unbounded one. -/
def combine? (onWords : Int64 → Int64 → Option Int64) (exact : Int → Int → Int) :
    Value → Value → Option Value
  | .integer left, .integer right =>
      match onWords left right with
      | some result => some (.integer result)
      | none => some (.ofInt (exact left.toInt right.toInt))
  | left, right =>
      match left.integral?, right.integral? with
      | some left, some right => some (.ofInt (exact left right))
      | _, _ => none

/-- An operation on integers, and the one on doubles that stands in for it when the right operand
is a double. -/
def arithmetic (onWords : Int64 → Int64 → Option Int64) (exact : Int → Int → Int)
    (inexact : Double → Double → Double) (left right : Value) : Reply :=
  match combine? onWords exact left right, left.integral?, right with
  | some result, _, _ => .answer result
  | none, some left, .double right => .double (inexact (Double.ofInt left) right)
  | none, _, _ => .mismatch

/-- A sum.  It is the one operation that also takes the double on the left. -/
def sum (left right : Value) : Reply :=
  match combine? Word.sum? (· + ·) left right, left.number?, right.number? with
  | some result, _, _ => .answer result
  | none, some (.integer left), some (.double right) => .double (Double.ofInt left + right)
  | none, some (.double left), some (.integer right) => .double (left + Double.ofInt right)
  | none, _, _ => .mismatch

/-- A quotient rounded down.  Division by the integer zero is refused before anything is said about
the dividend. -/
def floorQuotient (left right : Value) : Reply :=
  if right.integral? = some 0 then .refuse .divisionByZero
  else
    arithmetic Word.floorQuotient? Integer.floorQuotient
      (fun left right => Double.floor (left / right)) left right

/-- A remainder of two integers of which the right one must not be zero.  Two words always have a
word as their remainder. -/
def divided (onWords : Int64 → Int64 → Int64) (exact : Int → Int → Int) (left right : Value) :
    Reply :=
  if left.integral?.isSome ∧ right.integral? = some 0 then .refuse .divisionByZero
  else .ofOption (combine? (fun left right => some (onWords left right)) exact left right)

/-- An operation on the bits of two integers.  The bits of two words make a word. -/
def bitwise (onWords : Int64 → Int64 → Int64) (exact : Int → Int → Int) (left right : Value) :
    Reply :=
  .ofOption (combine? (fun left right => some (onWords left right)) exact left right)

/-- A shift.  The amount is always a word, and must not be negative. -/
def shifted (onWords : Int64 → Nat → Option Int64) (exact : Int → Nat → Int)
    (number amount : Value) : Reply :=
  match amount with
  | .integer amount =>
      if amount < 0 then .refuse .negativeShift
      else
        .ofOption (convert? (onWords · amount.toInt.toNat) (exact · amount.toInt.toNat) number)
  | _ => .mismatch

/-- A comparison.  Numbers that are not ordered cannot be compared. -/
def comparison (expected : Ordering → Bool) (left right : Value) : Reply :=
  match left.number?, right.number? with
  | some left, some right =>
      match left.compare? right with
      | some ordering => .truth (expected ordering)
      | none => .mismatch
  | _, _ => .mismatch

/-- Whether two values are equal numbers. -/
def equalNumbers (left right : Value) : Bool :=
  match left.number?, right.number? with
  | some left, some right => left.compare? right == some .eq
  | _, _ => false

/-- A square root.  A word that is not a square has a double as its root, while a big integer has
its root rounded down. -/
def squareRoot (value : Value) : Reply :=
  match value with
  | .integer number =>
      if number < 0 then .refuse .negativeRoot
      else
        let radicand := number.toInt.toNat
        let root := Integer.floorRoot radicand
        if root * root = radicand then .integer root
        else .double (Double.ofInt number.toInt).sqrt
  | .big number =>
      if 0 < number then .integer (Integer.floorRoot number.toNat) else .refuse .negativeRoot
  | _ => .mismatch

/-- An operation on the integer that a value holds. -/
def onIntegral (operation : Int → Reply) (value : Value) : Reply :=
  match value.integral? with
  | some number => operation number
  | none => .mismatch

/-- The reply of an operation with one operand. -/
def unary : IntegerOperation → Option (Value → Reply)
  | .absolute => some fun value =>
      .ofOption (convert? Word.magnitude? (fun number => number.natAbs) value)
  | .root => some squareRoot
  | .asString => some (onIntegral fun number => .answer (.string (Integer.text number)))
  | .asDouble => some (onIntegral fun number => .double (Double.ofInt number))
  | _ => none

/-- The reply of an operation with two operands. -/
def binary : IntegerOperation → Option (Value → Value → Reply)
  | .less => some (comparison Ordering.isLT)
  | .lessOrEqual => some (comparison Ordering.isLE)
  | .greater => some (comparison Ordering.isGT)
  | .greaterOrEqual => some (comparison Ordering.isGE)
  | .equal => some fun left right => .truth (equalNumbers left right)
  | .unequal => some fun left right => .truth (!equalNumbers left right)
  | .plus => some sum
  | .minus => some (arithmetic Word.difference? (· - ·) (· - ·))
  | .times => some (arithmetic Word.product? (· * ·) (· * ·))
  | .quotient => some floorQuotient
  | .ratio => some fun left right =>
      match left.number?, right.number? with
      | some left, some right => .double (left.toDouble / right.toDouble)
      | _, _ => .mismatch
  | .modulo => some (divided Word.floorRemainder Integer.floorRemainder)
  | .remainder => some (divided Word.truncatedRemainder Int.tmod)
  | .conjunction => some (bitwise (· &&& ·) Integer.conjunction)
  | .shiftLeft => some (shifted Word.shiftLeft? Integer.shiftLeft)
  | .shiftRight => some (shifted (fun word amount => some (Word.shiftRight word amount))
      Integer.shiftRight)
  | .exclusiveDisjunction => some (bitwise (· ^^^ ·) Integer.exclusiveDisjunction)
  | _ => none

/-- The reply of an operation to its arguments. -/
def reply (operation : IntegerOperation) (arguments : List Value) : Reply :=
  match operation.unary, operation.binary, arguments with
  | some unary, _, value :: _ => unary value
  | none, some binary, left :: right :: _ => binary left right
  | _, _, _ => .mismatch

end IntegerOperation

/-- Draw a random number below a bound. -/
def Image.draw (image : Image) (bound : Int64) : Int64 × Image :=
  (image.platform.random image.drawn bound, { image with drawn := bound :: image.drawn })

/-- A random natural number below an integer. -/
def IntegerOperation.random : List Value → Eval Value
  | .integer bound :: _ =>
      if 0 < bound then do return .integer (← modifyGet fun image => image.draw bound)
      else (Primitive.integer .atRandom).refuse .emptyRange
  | .big _ :: _ => (Primitive.integer .atRandom).refuse .rangeTooBig
  | _ => (Primitive.integer .atRandom).mismatch

/-- Run an operation of integers. -/
def IntegerOperation.run (operation : IntegerOperation) (arguments : List Value) : Eval Value :=
  match operation with
  | .atRandom => IntegerOperation.random arguments
  | operation => (Primitive.integer operation).conclude (operation.reply arguments)

end MessageMachine
