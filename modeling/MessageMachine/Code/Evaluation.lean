import MessageMachine.Machine.Sending

/-!
# Evaluation of prepared code

Code is evaluated in the frame of the running activation, operands from left to right.  A control
message with booleans and blocks for operands is run on the spot; at the first operands for which
that is not possible its site settles on sending.
-/

namespace MessageMachine

namespace Image

/-- Settle a control site on sending. -/
def generalizeControl (image : Image) (site : ControlSiteRef) : Image :=
  { image with sites := { image.sites with controls := image.sites.controls.set site .generic } }

/-- The frame that holds a slot, seen from a frame, if there is such a slot. -/
def slotHome? (image : Image) (ref : FrameRef) (slot : Slot) : Option FrameRef :=
  match image.enclosing? ref slot.depth with
  | some home =>
      if slot.index < (image.frameAt home).slotCount slot.kind then some home else none
  | none => none

end Image

namespace Machine

/-- Run one block for as long as another one answers exactly the expected truth value. -/
def loop (machine : Machine) (condition body : BlockRef) (expected : Bool) : Nat → Eval Value
  | 0 => throw .exhausted
  | rounds + 1 => do
      match ← machine.activate (.block condition []) with
      | .boolean truth =>
          if truth = expected then
            let _ ← machine.activate (.block body [])
            machine.loop condition body expected rounds
          else return .nil
      | _ => return .nil

end Machine

mutual

/-- The value of a literal.  Arrays are made anew each time. -/
def Datum.evaluate : Datum → Eval Value
  | .symbol text => return .symbol text
  | .string text => return .string text
  | .double number => return .double number
  | .integer number => return .integer number
  | .big number => return .big number
  | .array items => do Eval.makeArray (← Datum.evaluateAll items).toArray

/-- The values of literals, one after the other. -/
def Datum.evaluateAll : List Datum → Eval (List Value)
  | [] => return []
  | item :: rest => do
      let item ← item.evaluate
      let rest ← Datum.evaluateAll rest
      return item :: rest

end

namespace ControlMessage

/-- What a control message does when its operands are booleans and blocks without parameters.  For
other operands there is nothing to run, and the message has to be sent. -/
def run? (machine : Machine) (image : Image) (message : ControlMessage) (receiver : Value)
    (operands : List Value) : Option (Eval Value) :=
  let plain := fun (block : BlockRef) => (image.blockAt block).parameters = 0
  match message, receiver, operands with
  | .ifTrue, .boolean truth, [.block body] =>
      if plain body then
        some (if truth then machine.activate (.block body []) else return .nil)
      else none
  | .ifFalse, .boolean truth, [.block body] =>
      if plain body then
        some (if truth then return .nil else machine.activate (.block body []))
      else none
  | .ifTrueIfFalse, .boolean truth, [.block first, .block second] =>
      if plain first ∧ plain second then
        some (machine.activate (.block (if truth then first else second) []))
      else none
  | .ifFalseIfTrue, .boolean truth, [.block first, .block second] =>
      if plain first ∧ plain second then
        some (machine.activate (.block (if truth then second else first) []))
      else none
  | .whileTrue, .block condition, [.block body] =>
      if plain condition ∧ plain body then
        some (machine.loop condition body true machine.patience)
      else none
  | .whileFalse, .block condition, [.block body] =>
      if plain condition ∧ plain body then
        some (machine.loop condition body false machine.patience)
      else none
  | _, _, _ => none

end ControlMessage

namespace Machine

/-- Run a control message at its site: without a send as long as all operands so far allowed it. -/
def controlAt (machine : Machine) (controlSite : ControlSiteRef) (message : ControlMessage)
    (site : CallSiteRef) (selector : Selector) (receiver : Value) (operands : List Value) :
    Eval Value := do
  let image ← get
  match image.sites.controls.get controlSite with
  | .generic => machine.sendAt site selector receiver operands
  | .specialized =>
      match message.run? machine image receiver operands with
      | some run => run
      | none =>
          modify fun image => image.generalizeControl controlSite
          Eval.note fun image => .controlGeneralized selector controlSite (image.text? receiver)
          machine.sendAt site selector receiver operands

end Machine

mutual

/-- Evaluate code in a frame. -/
def Code.evaluate (machine : Machine) (frame : FrameRef) : Code → Eval Value
  | .self => return ((← get).frameAt frame).receiver
  | .read slot => do
      match (← get).slot? frame slot with
      | some value => return value
      | none => Eval.fail (.internal (.slotNotRead slot))
  | .write slot value => do
      let value ← value.evaluate machine frame
      match (← get).slotHome? frame slot with
      | some home =>
          Eval.modifyFrame home fun frame => frame.setSlot slot.kind slot.index value
          return value
      | none => Eval.fail (.internal (.slotNotWritten slot))
  | .readField site index => do
      let receiver := ((← get).frameAt frame).receiver
      match ← modifyGet fun image => image.readFieldAt site receiver index with
      | some value => return value
      | none => Eval.fail (.internal (.fieldNotRead index))
  | .writeField site index value => do
      let value ← value.evaluate machine frame
      let receiver := ((← get).frameAt frame).receiver
      if ← modifyGet fun image => image.writeFieldAt site receiver index value then return value
      else Eval.fail (.internal (.fieldNotWritten index))
  | .global name => do
      match (← get).global? name with
      | some value => return value
      | none => machine.reportGlobal ((← get).frameAt frame).receiver name
  | .literal datum => datum.evaluate
  | .block parameters temporaries captures body =>
      Eval.makeBlock {
        captured := if captures then some frame else none
        parameters
        temporaries
        body }
  | .send site selector receiver operands => do
      let receiver ← receiver.evaluate machine frame
      let operands ← Code.evaluateAll machine frame operands
      machine.sendAt site selector receiver operands
  | .superSend site origin selector operands => do
      let receiver := ((← get).frameAt frame).receiver
      let operands ← Code.evaluateAll machine frame operands
      machine.sendSuperAt site origin selector receiver operands
  | .control controlSite message site selector receiver operands => do
      let receiver ← receiver.evaluate machine frame
      let operands ← Code.evaluateAll machine frame operands
      machine.controlAt controlSite message site selector receiver operands
  | .answer value span => do
      let value ← value.evaluate machine frame
      let image ← get
      let home := image.outermost frame
      if (image.frameAt home).live then throw (.unwinding value home)
      else
        let method := image.frameName home
        Eval.note fun _ => .returnEscaped method span
        Eval.fail (.escapedReturn method span)

/-- Evaluate expressions one after the other. -/
def Code.evaluateAll (machine : Machine) (frame : FrameRef) : List Code → Eval (List Value)
  | [] => return []
  | code :: rest => do
      let value ← code.evaluate machine frame
      let values ← Code.evaluateAll machine frame rest
      return value :: values

end

/-- Evaluate a body: its value is that of the last expression, or nil if it has none. -/
def Code.evaluateBody (machine : Machine) (frame : FrameRef) (body : List Code) : Eval Value := do
  return (← Code.evaluateAll machine frame body).getLast?.getD .nil

end MessageMachine
