import MessageMachine.Code.Primitive
import MessageMachine.Code.Evaluation

/-!
# Replies of operations

Operations on plain data need no machine: they reply with a value, refuse, or find that the
arguments are of the wrong kinds.  Arguments beyond those that an operation asks for are ignored,
and a missing argument is one of the wrong kind.
-/

namespace MessageMachine

/-- What an operation on plain data comes to. -/
inductive Reply
  | answer (value : Value)
  | refuse (refusal : Refusal)
  /-- The arguments are of the wrong kinds. -/
  | mismatch
deriving DecidableEq

/-- The place that a position counted from zero stands for. -/
def place? (position : Int64) : Option Nat :=
  if 0 ≤ position.toInt then some position.toInt.toNat else none

namespace Primitive

/-- Report arguments of the wrong kinds. -/
def mismatch (primitive : Primitive) : Eval Value :=
  Eval.fail (.typeMismatch primitive.title)

/-- Refuse arguments. -/
def refuse (primitive : Primitive) (refusal : Refusal) : Eval Value :=
  Eval.fail (.refused primitive.title refusal)

/-- The evaluation that a reply stands for. -/
def conclude (primitive : Primitive) : Reply → Eval Value
  | .answer value => return value
  | .refuse refusal => primitive.refuse refusal
  | .mismatch => primitive.mismatch

end Primitive

/-- A truth value as a reply. -/
def Reply.truth (value : Bool) : Reply :=
  .answer (.boolean value)

/-- An integer as a reply, in normal form. -/
def Reply.integer (number : Int) : Reply :=
  .answer (.ofInt number)

/-- A value as a reply, and a mismatch if there is none. -/
def Reply.ofOption : Option Value → Reply
  | some value => .answer value
  | none => .mismatch

/-- A double as a reply. -/
def Reply.double (number : Double) : Reply :=
  .answer (.double number)

end MessageMachine
