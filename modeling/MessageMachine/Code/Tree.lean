import MessageMachine.Language.Source
import MessageMachine.Memory.Arena

/-!
# Prepared code

The executable form of method bodies.  It follows the source tree, with literals read, every slot
address checked, and a site of its own for each send, field access and control message, whose state
adapts while the code runs.
-/

namespace MessageMachine

/-- Literals that are ready to be evaluated. -/
inductive Datum
  | symbol (text : String)
  | string (text : String)
  | double (number : Double)
  | integer (number : Int64)
  | big (number : Int)
  | array (items : List Datum)

/-- Executable expressions. -/
inductive Code
  /-- The receiver of the enclosing method. -/
  | self
  | read (slot : Slot)
  | write (slot : Slot) (value : Code)
  | readField (site : FieldSiteRef) (index : Nat)
  | writeField (site : FieldSiteRef) (index : Nat) (value : Code)
  | global (name : String)
  | literal (datum : Datum)
  /-- Make a block, keeping hold of the running activation if it captures. -/
  | block (parameters temporaries : Nat) (captures : Bool) (body : List Code)
  | send (site : CallSiteRef) (selector : Selector) (receiver : Code) (operands : List Code)
  /-- A send to the receiver whose lookup starts at a fixed class. -/
  | superSend (site : CallSiteRef) (origin : ClassRef) (selector : Selector)
      (operands : List Code)
  /-- A send of a control message, with a fast path for booleans and blocks. -/
  | control (controlSite : ControlSiteRef) (message : ControlMessage) (site : CallSiteRef)
      (selector : Selector) (receiver : Code) (operands : List Code)
  /-- Leave the enclosing method with a value. -/
  | answer (value : Code) (span : Span)

instance : Inhabited Code :=
  ⟨.self⟩

/-- The executable form of a method with a body. -/
structure Routine where
  /-- The number of parameters, the receiver not counted. -/
  parameters : Nat
  temporaries : Nat
  body : List Code
  /-- The sites of the sends of the body, in order of allocation. -/
  callSites : List CallSiteRef

end MessageMachine
