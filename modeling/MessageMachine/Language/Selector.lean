import MessageMachine.Text.Alphabetic
import MessageMachine.Text.Numeric

/-!
# Selectors

A selector names a message.  Its spelling alone fixes how many arguments the message takes, and
six selectors name the control messages, which branch or loop and may be run without a send.
-/

namespace MessageMachine

/-- The name of a message. -/
abbrev Selector := String

namespace Selector

/-- Whether a character can stand in a word. -/
def isWordCharacter (character : Char) : Bool :=
  CharacterClass.alphabetic.contains character || CharacterClass.numeric.contains character ||
    character == '_'

/-- The number of arguments a selector takes: none for a word, one for each colon if it ends in a
colon, and one for any other spelling, which is an operator. -/
def arity (selector : Selector) : Nat :=
  let characters := selector.toList
  if characters.all isWordCharacter then 0
  else if characters.getLast? = some ':' then characters.count ':'
  else 1

end Selector

/-- The messages that branch or loop. -/
inductive ControlMessage
  | ifTrue
  | ifFalse
  | ifTrueIfFalse
  | ifFalseIfTrue
  | whileTrue
  | whileFalse
deriving DecidableEq, Repr

namespace ControlMessage

/-- The selector of a control message. -/
def selector : ControlMessage → Selector
  | .ifTrue => "ifTrue:"
  | .ifFalse => "ifFalse:"
  | .ifTrueIfFalse => "ifTrue:ifFalse:"
  | .ifFalseIfTrue => "ifFalse:ifTrue:"
  | .whileTrue => "whileTrue:"
  | .whileFalse => "whileFalse:"

/-- All control messages. -/
def all : List ControlMessage :=
  [.ifTrue, .ifFalse, .ifTrueIfFalse, .ifFalseIfTrue, .whileTrue, .whileFalse]

/-- The control message that a selector names. -/
def ofSelector? (selector : Selector) : Option ControlMessage :=
  all.find? fun message => message.selector == selector

/-- The name of a control message. -/
def name : ControlMessage → String
  | .ifTrue => "IfTrue"
  | .ifFalse => "IfFalse"
  | .ifTrueIfFalse => "IfTrueIfFalse"
  | .ifFalseIfTrue => "IfFalseIfTrue"
  | .whileTrue => "WhileTrue"
  | .whileFalse => "WhileFalse"

/-- A control message is found from its own selector. -/
theorem ofSelector?_selector (message : ControlMessage) :
    ofSelector? message.selector = some message := by
  cases message <;> rfl

end ControlMessage

end MessageMachine
