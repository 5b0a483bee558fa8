import MessageMachine.Primitive.Reply

/-!
# Operations of booleans and blocks

Branches and loops.  A branch that is a block without parameters is run; any other value stands for
itself.
-/

namespace MessageMachine

/-- The value of a branch. -/
def Machine.branch (machine : Machine) : Value → Eval Value
  | .block ref => do
      if ((← get).blockAt ref).parameters = 0 then machine.activate (.block ref [])
      else return .block ref
  | value => return value

/-- Run an operation of booleans. -/
def BooleanOperation.run (machine : Machine) (operation : BooleanOperation)
    (arguments : List Value) : Eval Value :=
  match operation, arguments with
  | .ifTrue, .boolean truth :: consequent :: _ =>
      if truth then machine.branch consequent else return .nil
  | .ifFalse, .boolean truth :: alternative :: _ =>
      if truth then return .nil else machine.branch alternative
  | .ifTrueIfFalse, .boolean truth :: consequent :: alternative :: _ =>
      machine.branch (if truth then consequent else alternative)
  | .ifFalseIfTrue, .boolean truth :: alternative :: consequent :: _ =>
      machine.branch (if truth then consequent else alternative)
  | .not, .boolean truth :: _ => return .boolean (!truth)
  | .and, .boolean truth :: other :: _ =>
      if truth then machine.branch other else return .boolean false
  | .or, .boolean truth :: other :: _ =>
      if truth then return .boolean true else machine.branch other
  | _, _ => (Primitive.boolean operation).mismatch

/-- Run a loop over two blocks, if neither of them takes arguments. -/
def BlockOperation.runLoop (machine : Machine) (operation : BlockOperation) (expected : Bool)
    (condition body : BlockRef) : Eval Value := do
  let image ← get
  if (image.blockAt condition).parameters = 0 ∧ (image.blockAt body).parameters = 0 then
    machine.loop condition body expected machine.patience
  else (Primitive.block operation).mismatch

/-- Run an operation of blocks. -/
def BlockOperation.run (machine : Machine) (operation : BlockOperation)
    (arguments : List Value) : Eval Value := do
  match operation, arguments with
  | .parameterCount, .block ref :: _ => return .ofInt ((← get).blockAt ref).parameters
  | .whileTrue, .block condition :: .block body :: _ =>
      BlockOperation.runLoop machine operation true condition body
  | .whileFalse, .block condition :: .block body :: _ =>
      BlockOperation.runLoop machine operation false condition body
  | .value, .block ref :: _ => machine.activate (.block ref [])
  | .valueWith, .block ref :: operand :: _ => machine.activate (.block ref [operand])
  | .valueWithWith, .block ref :: first :: second :: _ =>
      machine.activate (.block ref [first, second])
  | _, _ => (Primitive.block operation).mismatch

end MessageMachine
