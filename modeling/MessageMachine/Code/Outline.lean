import MessageMachine.Code.Tree

/-!
# Outlines

The outline of prepared code lists the nodes whose state adapts while the code runs, and the blocks
with what they capture.  Each node stands before its operands.
-/

namespace MessageMachine

/-- A node that an outline shows. -/
inductive OutlineNode
  | read (site : FieldSiteRef) (index : Nat)
  | write (site : FieldSiteRef) (index : Nat)
  | block (parameters temporaries : Nat) (captures : Bool)
  | send (site : CallSiteRef) (selector : Selector)
  | superSend (site : CallSiteRef) (origin : ClassRef) (selector : Selector)
  | control (controlSite : ControlSiteRef) (message : ControlMessage) (site : CallSiteRef)
      (selector : Selector)

mutual

/-- The outline of an expression. -/
def Code.outline : Code → List OutlineNode
  | .self => []
  | .read _ => []
  | .write _ value => value.outline
  | .readField site index => [.read site index]
  | .writeField site index value => .write site index :: value.outline
  | .global _ => []
  | .literal _ => []
  | .block parameters temporaries captures body =>
      .block parameters temporaries captures :: Code.outlineAll body
  | .send site selector receiver operands =>
      .send site selector :: (receiver.outline ++ Code.outlineAll operands)
  | .superSend site origin selector operands =>
      .superSend site origin selector :: Code.outlineAll operands
  | .control controlSite message site selector receiver operands =>
      .control controlSite message site selector ::
        (receiver.outline ++ Code.outlineAll operands)
  | .answer value _ => value.outline

/-- The outline of expressions, one after the other. -/
def Code.outlineAll : List Code → List OutlineNode
  | [] => []
  | code :: rest => code.outline ++ Code.outlineAll rest

end

end MessageMachine
