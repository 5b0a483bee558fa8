import MessageMachine.Cache.Sites
import MessageMachine.Code.Flaw
import MessageMachine.Code.Tree
import MessageMachine.Language.Interner

/-!
# Preparation

Preparation turns the source of a method into code.  It checks the number of operands of every
send, the address of every slot and field and the digits of every big integer, decides which blocks
need to keep hold of the activation they are made in, meets the names and allocates the sites.
Sites are allocated in the order of evaluation, and stay allocated if the preparation fails further
on.
-/

namespace MessageMachine

namespace Source

/-- Whether a variable belongs to something outside a block, seen from a number of blocks inside
it. -/
def Variable.reachesOut (depth : Nat) : Variable → Bool
  | .field _ => true
  | .slot address => decide (depth < address.depth)

mutual

/-- Whether an expression needs anything outside a block, seen from a number of blocks inside it:
the receiver, the activation to return from, or a slot further out.  A global name may turn out to
be unknown, which is reported to the receiver. -/
def Expression.reachesOut (depth : Nat) : Expression → Bool
  | .self => true
  | .read address => address.reachesOut depth
  | .write address value => address.reachesOut depth || value.reachesOut depth
  | .global _ => true
  | .send receiver _ operands => receiver.reachesOut depth || Expression.anyReachOut depth operands
  | .superSend _ _ => true
  | .answer _ _ => true
  | .literal _ => false
  | .block _ _ body => Expression.anyReachOut (depth + 1) body

/-- Whether one of some expressions needs anything outside a block. -/
def Expression.anyReachOut (depth : Nat) : List Expression → Bool
  | [] => false
  | expression :: rest => expression.reachesOut depth || Expression.anyReachOut depth rest

end

end Source

/-- The slots that one scope has. -/
structure Scope where
  parameters : Nat
  temporaries : Nat
deriving DecidableEq, Repr

/-- The number of slots of a kind. -/
def Scope.available (scope : Scope) : SlotKind → Nat
  | .argument => scope.parameters
  | .temporary => scope.temporaries

/-- What the preparation of a method knows about its surroundings. -/
structure Surroundings where
  className : String
  fields : Nat
  superclass : Option ClassRef
  selector : Selector
  specializeControl : Bool

/-- What the preparation of a method adds to: the sites and the names of the machine, and the list
of the send sites that the method has been given. -/
structure Draft extends Sites where
  interner : Interner
  callSites : Array CallSiteRef

instance : Coe Draft Sites :=
  ⟨Draft.toSites⟩

/-- Preparation allocates sites, meets names and may find a flaw. -/
abbrev Preparing := EStateM BodyFlaw Draft

namespace Preparing

/-- Meet a name. -/
def meet (name : String) : Preparing Unit :=
  modify fun draft => { draft with interner := (draft.interner.intern name).2 }

/-- Allocate a send site and list it. -/
def callSite : Preparing CallSiteRef :=
  modifyGet fun draft => (draft.calls.next,
    { draft with
      calls := draft.calls.push .uninitialized
      callSites := draft.callSites.push draft.calls.next })

/-- Allocate a field site. -/
def fieldSite : Preparing FieldSiteRef :=
  modifyGet fun draft => (draft.fields.next, { draft with fields := draft.fields.push none })

/-- Allocate a control site. -/
def controlSite : Preparing ControlSiteRef :=
  modifyGet fun draft =>
    (draft.controls.next, { draft with controls := draft.controls.push .specialized })

end Preparing

/-- The flaw of a variable address, if it has one.  The scopes are given innermost first. -/
def Source.Variable.flaw? (surroundings : Surroundings) (scopes : List Scope) :
    Source.Variable → Option BodyFlaw
  | .field index =>
      if index < surroundings.fields then none
      else some (.fieldOutOfRange index surroundings.className surroundings.fields)
  | .slot address =>
      match scopes[address.depth]? with
      | none => some (.beyondMethod address)
      | some scope =>
          let available := scope.available address.kind
          if address.index < available then none else some (.slotOutOfRange address available)

/-- Refuse a variable address that has a flaw. -/
def Source.Variable.check (surroundings : Surroundings) (scopes : List Scope)
    (address : Source.Variable) : Preparing Unit :=
  match address.flaw? surroundings scopes with
  | some flaw => throw flaw
  | none => pure ()

mutual

/-- Prepare a literal. -/
def Source.Literal.prepare : Source.Literal → Preparing Datum
  | .symbol text => do
      Preparing.meet text
      return .symbol text
  | .string text => return .string text
  | .double value => return .double value
  | .integer value => return .integer value
  | .big digits =>
      match Integer.read digits with
      | .ok number => return .big number
      | .error error => throw (.bigLiteral digits error)
  | .array items => do return .array (← Source.Literal.prepareAll items)

/-- Prepare the items of an array literal. -/
def Source.Literal.prepareAll : List Source.Literal → Preparing (List Datum)
  | [] => return []
  | item :: rest => do
      let item ← item.prepare
      let rest ← Source.Literal.prepareAll rest
      return item :: rest

end

mutual

/-- Prepare an expression, within scopes given innermost first. -/
def Source.Expression.prepare (surroundings : Surroundings) (scopes : List Scope) :
    Source.Expression → Preparing Code
  | .self => return .self
  | .read address => do
      address.check surroundings scopes
      match address with
      | .slot slot => return .read slot
      | .field index => return .readField (← Preparing.fieldSite) index
  | .write address value => do
      address.check surroundings scopes
      let value ← value.prepare surroundings scopes
      match address with
      | .slot slot => return .write slot value
      | .field index => return .writeField (← Preparing.fieldSite) index value
  | .global name => do
      Preparing.meet name
      return .global name
  | .send receiver selector operands => do
      if operands.length ≠ selector.arity then
        throw (.operandCount selector operands.length selector.arity)
      let receiver ← receiver.prepare surroundings scopes
      let operands ← Source.Expression.prepareAll surroundings scopes operands
      Preparing.meet selector
      let site ← Preparing.callSite
      match (if surroundings.specializeControl then ControlMessage.ofSelector? selector else none)
        with
      | some message =>
          return .control (← Preparing.controlSite) message site selector receiver operands
      | none => return .send site selector receiver operands
  | .superSend selector operands =>
      match surroundings.superclass with
      | none =>
          throw (.noSuperclass surroundings.selector selector surroundings.className)
      | some origin => do
          let operands ← Source.Expression.prepareAll surroundings scopes operands
          Preparing.meet selector
          return .superSend (← Preparing.callSite) origin selector operands
  | .answer value span => do
      let value ← value.prepare surroundings scopes
      return .answer value span
  | .literal value => do return .literal (← value.prepare)
  | .block parameters temporaries body => do
      if blockParameterLimit < parameters then throw (.blockParameters parameters)
      let scope : Scope := { parameters, temporaries }
      let prepared ← Source.Expression.prepareAll surroundings (scope :: scopes) body
      return .block parameters temporaries (Source.Expression.anyReachOut 0 body) prepared

/-- Prepare expressions one after the other. -/
def Source.Expression.prepareAll (surroundings : Surroundings) (scopes : List Scope) :
    List Source.Expression → Preparing (List Code)
  | [] => return []
  | expression :: rest => do
      let expression ← expression.prepare surroundings scopes
      let rest ← Source.Expression.prepareAll surroundings scopes rest
      return expression :: rest

end

/-- Prepare a method, from a draft that lists no send sites yet.  Its send sites are those listed on
the way. -/
def Source.MethodDefinition.prepare (definition : Source.MethodDefinition)
    (surroundings : Surroundings) : EStateM Flaw Draft Routine :=
  match definition.body with
  | .primitive => throw (.noBody definition.selector)
  | .expressions temporaries body => do
      let expected := definition.selector.arity
      if definition.parameters ≠ expected then
        throw (.parameterCount definition.selector expected definition.parameters)
      let scope : Scope := { parameters := definition.parameters, temporaries }
      let body ← EStateM.adaptExcept (Flaw.inBody definition.selector)
        (Source.Expression.prepareAll surroundings [scope] body)
      return {
        parameters := definition.parameters
        temporaries
        body
        callSites := (← get).callSites.toList }

end MessageMachine
