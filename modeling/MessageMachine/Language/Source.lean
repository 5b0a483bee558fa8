import MessageMachine.Language.Selector
import MessageMachine.Number.Double

/-!
# Source trees

The trees that are handed to the machine: class definitions holding method definitions holding
expressions.  Names are already resolved.  A slot is addressed by the number of enclosing blocks
to leave and a position in the scope found there, a field by its position in the receiver, and
`self` is an expression of its own.
-/

namespace MessageMachine

/-- A region of program text, kept to locate a return in messages. -/
structure Span where
  first : Nat
  last : Nat
deriving DecidableEq, Repr

namespace Span

/-- The span of a return that has no place in a text. -/
def absent : Span where
  first := 0
  last := 0

/-- The text of a span. -/
def text (span : Span) : String :=
  toString span.first ++ ".." ++ toString span.last

end Span

/-- The two kinds of slots of an activation. -/
inductive SlotKind
  | argument
  | temporary
deriving DecidableEq, Repr

/-- The lexical address of an argument or a temporary. -/
structure Slot where
  kind : SlotKind
  /-- The number of enclosing blocks to leave. -/
  depth : Nat
  /-- The position among the slots of that kind. -/
  index : Nat
deriving DecidableEq, Repr

/-- The text of a slot address in messages. -/
def Slot.text (slot : Slot) : String :=
  let kind := match slot.kind with
    | .argument => "Argument"
    | .temporary => "Local"
  kind ++ " \x7b up_idx: " ++ toString slot.depth ++ ", idx: " ++ toString slot.index ++ " \x7d"

namespace Source

/-- What can be read and assigned to. -/
inductive Variable
  | slot (address : Slot)
  | field (index : Nat)
deriving DecidableEq, Repr

/-- Literals.  The digits of a big integer are checked when the method is prepared. -/
inductive Literal
  | symbol (text : String)
  | string (text : String)
  | double (value : Double)
  | integer (value : Int64)
  | big (digits : String)
  | array (items : List Literal)

/-- Expressions. -/
inductive Expression
  /-- The receiver of the enclosing method. -/
  | self
  | read (address : Variable)
  | write (address : Variable) (value : Expression)
  | global (name : String)
  | send (receiver : Expression) (selector : Selector) (operands : List Expression)
  /-- A send to the receiver whose lookup starts above the class that holds the method. -/
  | superSend (selector : Selector) (operands : List Expression)
  /-- Leave the enclosing method with a value. -/
  | answer (value : Expression) (span : Span)
  | literal (value : Literal)
  | block (parameters temporaries : Nat) (body : List Expression)

/-- The body of a method definition. -/
inductive MethodBody
  /-- The method is to be bound to one of the machine's own operations. -/
  | primitive
  | expressions (temporaries : Nat) (body : List Expression)

/-- A method definition. -/
structure MethodDefinition where
  selector : Selector
  /-- The number of declared parameters, the receiver not counted. -/
  parameters : Nat
  body : MethodBody

/-- A class definition.  A missing superclass name means the root class. -/
structure ClassDefinition where
  name : String
  superclass : Option String
  fields : List String
  methods : List MethodDefinition
  classFields : List String
  classMethods : List MethodDefinition

end Source

end MessageMachine
