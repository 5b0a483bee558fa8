import MessageMachine.Primitive.Integer

/-!
# Operations of doubles

Both operands may be numbers of any kind and are taken as doubles, except that equality and order
between two integers are exact.  Numbers that are not ordered compare as false.
-/

namespace MessageMachine

namespace DoubleOperation

/-- An operation on two numbers taken as doubles. -/
def arithmetic (operation : Double → Double → Double) (left right : Value) : Reply :=
  match left.number?, right.number? with
  | some left, some right => .double (operation left.toDouble right.toDouble)
  | _, _ => .mismatch

/-- A comparison with a number.  What is not ordered compares as false. -/
def comparison (expected : Ordering → Bool) (left right : Value) : Reply :=
  match right.number? with
  | none => .mismatch
  | some right =>
      match left.number?.bind fun left => left.compare? right with
      | some ordering => .truth (expected ordering)
      | none => .truth false

/-- An operation on a double. -/
def onDouble (operation : Double → Reply) : Value → Reply
  | .double number => operation number
  | _ => .mismatch

/-- An integer, if a double has one. -/
def integerOr (refusal : Refusal) : Option Int → Reply
  | some number => .integer number
  | none => .refuse refusal

/-- The reply of an operation with one operand. -/
def unary : DoubleOperation → Option (Value → Reply)
  | .root => some (onDouble fun number => .double number.sqrt)
  | .round => some (onDouble fun number => integerOr .notRoundable (Double.round? number))
  | .asString => some (onDouble fun number => .answer (.string (Double.text number)))
  | .asInteger => some (onDouble fun number => integerOr .notIntegral (Double.truncate? number))
  | _ => none

/-- The reply of an operation with two operands. -/
def binary : DoubleOperation → Option (Value → Value → Reply)
  | .plus => some (arithmetic (· + ·))
  | .minus => some (arithmetic (· - ·))
  | .times => some (arithmetic (· * ·))
  | .ratio => some (arithmetic (· / ·))
  | .modulo => some (arithmetic Double.remainder)
  | .equal => some fun left right => .truth (IntegerOperation.equalNumbers left right)
  | .less => some (comparison Ordering.isLT)
  | .lessOrEqual => some (comparison Ordering.isLE)
  | .greater => some (comparison Ordering.isGT)
  | .greaterOrEqual => some (comparison Ordering.isGE)
  | _ => none

/-- The reply of an operation to its arguments. -/
def reply (operation : DoubleOperation) (arguments : List Value) : Reply :=
  match operation.unary, operation.binary, arguments with
  | some unary, _, value :: _ => unary value
  | none, some binary, left :: right :: _ => binary left right
  | _, _, _ => .mismatch

end DoubleOperation

end MessageMachine
