import MessageMachine.Code.Tree
import MessageMachine.Memory.Value

/-!
# Frames and blocks

A frame is the record of one activation.  Frames outlive their activation: a block made in it may
still read and write its slots, and only a return to it asks whether it is still live.
-/

namespace MessageMachine

/-- The record of one activation. -/
structure Frame where
  /-- The method that runs in this frame; none for the frame of a block. -/
  method : Option MethodRef
  receiver : Value
  /-- The frame in which the running block was made, if the block kept hold of it. -/
  parent : Option FrameRef
  arguments : Array Value
  temporaries : Array Value
  /-- Whether the activation is still running. -/
  live : Bool
deriving Inhabited

namespace Frame

/-- The frame for an invocation of a method. -/
def ofMethod (method : MethodRef) (receiver : Value) (arguments : List Value)
    (temporaries : Nat) : Frame where
  method := some method
  receiver
  parent := none
  arguments := arguments.toArray
  temporaries := Array.replicate temporaries .nil
  live := true

/-- The frame for a call of a block.  The receiver is that of the enclosing frame, or nil without
one. -/
def ofBlock (parent : Option FrameRef) (receiver : Value) (arguments : List Value)
    (temporaries : Nat) : Frame where
  method := none
  receiver
  parent
  arguments := arguments.toArray
  temporaries := Array.replicate temporaries .nil
  live := true

/-- Read a slot of this frame. -/
def slot? (frame : Frame) (kind : SlotKind) (index : Nat) : Option Value :=
  match kind with
  | .argument => frame.arguments[index]?
  | .temporary => frame.temporaries[index]?

/-- The number of slots of a kind. -/
def slotCount (frame : Frame) : SlotKind → Nat
  | .argument => frame.arguments.size
  | .temporary => frame.temporaries.size

/-- Write a slot of this frame. -/
def setSlot (frame : Frame) (kind : SlotKind) (index : Nat) (value : Value) : Frame :=
  match kind with
  | .argument => { frame with arguments := frame.arguments.setIfInBounds index value }
  | .temporary => { frame with temporaries := frame.temporaries.setIfInBounds index value }

/-- Record that the activation has ended. -/
def terminate (frame : Frame) : Frame :=
  { frame with live := false }

end Frame

/-- A block ready to be called. -/
structure Closure where
  /-- The frame in which the block was made, if it refers to anything outside itself. -/
  captured : Option FrameRef
  parameters : Nat
  temporaries : Nat
  body : List Code
deriving Inhabited

end MessageMachine
