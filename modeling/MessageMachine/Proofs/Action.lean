import MessageMachine.Machine.Sending
import MessageMachine.Code.Evaluation
import MessageMachine.Proofs.Tending

/-!
# The actions of a machine

Whatever a machine does to its image, in the middle of an evaluation or on behalf of its host, is a
sequence of the actions listed here.  An action is allowed when it refers to existing things only
and when the sites that it uses belong to nodes of prepared code.  These conditions are the ones
that evaluation and preparation establish, so that an invariant of images need only be checked
against single allowed actions.
-/

namespace MessageMachine

/-- The sites after an allocation.  A new site starts out like one that was never allocated. -/
structure Sites.Grown (before after : Sites) : Prop where
  calls : ∀ site, after.calls.get site = before.calls.get site
  fields : ∀ site, after.fields.get site = before.fields.get site
  controls : ∀ site, after.controls.get site = before.controls.get site
  callCount : before.calls.size ≤ after.calls.size
  fieldCount : before.fields.size ≤ after.fields.size
  version : after.version = before.version

namespace Image

/-- Add an array. -/
def addArray (image : Image) (elements : Array Value) : Image :=
  { image with heap := { image.heap with arrays := image.heap.arrays.push elements } }

/-- Replace an element of an array. -/
def setElement (image : Image) (ref : ArrayRef) (place : Nat) (value : Value) : Image :=
  let arrays := image.heap.arrays.modify ref fun elements => elements.setIfInBounds place value
  { image with heap := { image.heap with arrays } }

/-- Add a block. -/
def addBlock (image : Image) (closure : Closure) : Image :=
  { image with heap := { image.heap with blocks := image.heap.blocks.push closure } }

/-- Add a frame. -/
def addFrame (image : Image) (frame : Frame) : Image :=
  { image with heap := { image.heap with frames := image.heap.frames.push frame } }

theorem frameAt_addFrame_next (image : Image) (frame : Frame) :
    (image.addFrame frame).frameAt image.heap.frames.next = frame :=
  Arena.get_push_next _ _

/-- Change a frame. -/
def changeFrame (image : Image) (ref : FrameRef) (change : Frame → Frame) : Image :=
  { image with heap := { image.heap with frames := image.heap.frames.modify ref change } }

/-- Whether the nodes of some code can be taken into an image: their sites exist, remember nothing
and are used by no other node. -/
structure Fresh (image : Image) (body : List Code) : Prop where
  placed : ∀ node ∈ Code.outlineAll body, node.Placed image
  callsUnused : ∀ node ∈ Code.outlineAll body, ∀ site, node.callSite? = some site →
    image.sites.calls.get site = .uninitialized ∧
      ∀ other, image.Outlines other → other.callSite? ≠ some site
  fieldsUnused : ∀ node ∈ Code.outlineAll body, ∀ site, node.fieldSite? = some site →
    image.sites.fields.get site = none ∧
      ∀ other, image.Outlines other → other.fieldSite? ≠ some site
  callsApart : ∀ node ∈ Code.outlineAll body, ∀ other ∈ Code.outlineAll body, ∀ site,
    node.callSite? = some site → other.callSite? = some site → node = other
  fieldsApart : ∀ node ∈ Code.outlineAll body, ∀ other ∈ Code.outlineAll body, ∀ site,
    node.fieldSite? = some site → other.fieldSite? = some site → node = other

end Image

namespace Eval

/-- What comes after a look at the image goes on from it. -/
theorem get_bind {Next : Type} (next : Image → Eval Next) (image : Image) :
    (get >>= next) image = next image image :=
  rfl

/-- What comes after a change of the image goes on from the changed image. -/
theorem modifyGet_bind {Answer Next : Type} (change : Image → Answer × Image)
    (next : Answer → Eval Next) (image : Image) :
    (modifyGet change >>= next) image = next (change image).1 (change image).2 :=
  rfl

/-- What comes after a name is met goes on from the image with the name. -/
theorem meet_bind {Next : Type} (name : String) (next : Unit → Eval Next) (image : Image) :
    (Eval.meet name >>= next) image = next () (image.meetAll [name]) :=
  rfl

/-- What comes after a subtraction of words goes on with the difference, unless the machine stops
there. -/
theorem difference_bind {Next : Type} (left right : Int64) (next : Int64 → Eval Next)
    (image : Image) :
    (Eval.difference left right >>= next) image =
      match image.platform.difference? left right with
      | some result => next result image
      | none => .error .stopped image := by
  rw [Eval.difference, bind_assoc, get_bind]
  cases image.platform.difference? left right <;> rfl

/-- What comes after something that may take forever goes on if it does not. -/
theorem ofOption_bind {Answer Next : Type} (found : Option Answer) (next : Answer → Eval Next)
    (image : Image) :
    (Eval.ofOption found >>= next) image =
      match found with
      | some answer => next answer image
      | none => .error .exhausted image := by
  cases found <;> rfl

end Eval

/-- What a machine can do to its image. -/
inductive Action
  | noteDown (journal : Journal)
  | meet (names : List String)
  | draw (bound : Int64)
  | makeArray (elements : Array Value)
  | setElement (ref : ArrayRef) (place : Nat) (value : Value)
  | makeBlock (closure : Closure)
  | instantiate (owner : ClassRef)
  | enter (frame : Frame)
  | setSlot (frame : FrameRef) (kind : SlotKind) (index : Nat) (value : Value)
  | leave (frame : FrameRef)
  | readField (receiver : Value) (index : Nat)
  | writeField (receiver : Value) (index : Nat) (value : Value)
  | readFieldAt (site : FieldSiteRef) (receiver : Value) (index : Nat)
  | writeFieldAt (site : FieldSiteRef) (receiver : Value) (index : Nat) (value : Value)
  | resolve (site : CallSiteRef) (selector : Selector) (receiver : Value)
  | resolveSuper (site : CallSiteRef) (origin : ClassRef) (selector : Selector)
  | settle (site : ControlSiteRef)
  | bind (name : String) (value : Value)
  | allocate (draft : Draft)
  | install (holder : ClassRef) (selector : Selector) (behavior : Behavior)
  | remove (holder : ClassRef) (selector : Selector)
  | register (name : String) (superclass : ClassRef) (fields classFields : List String)

namespace Action

/-- The image after an action. -/
def perform (image : Image) : Action → Image
  | .noteDown journal => { image with journal }
  | .meet names => image.meetAll names
  | .draw bound => { image with drawn := bound :: image.drawn }
  | .makeArray elements => image.addArray elements
  | .setElement ref place value => image.setElement ref place value
  | .makeBlock closure => image.addBlock closure
  | .instantiate owner => (image.instantiate owner).2
  | .enter frame => image.addFrame frame
  | .setSlot frame kind index value =>
      image.changeFrame frame fun frame => frame.setSlot kind index value
  | .leave frame => image.changeFrame frame Frame.terminate
  | .readField receiver index => (image.readField receiver index).2
  | .writeField receiver index value => (image.writeField receiver index value).2
  | .readFieldAt site receiver index => (image.readFieldAt site receiver index).2
  | .writeFieldAt site receiver index value => (image.writeFieldAt site receiver index value).2
  | .resolve site selector receiver => (image.lookupAt site selector receiver).2
  | .resolveSuper site origin selector => (image.lookupSuperAt site origin selector).2
  | .settle site => image.generalizeControl site
  | .bind name value => (image.setGlobal name value).2
  | .allocate draft => image.adopt draft
  | .install holder selector behavior => image.addMethod holder selector behavior
  | .remove holder selector => (image.removeMethod holder selector).2
  | .register name superclass fields classFields =>
      (image.registerPair name (some superclass) (some image.core.metaclass) fields
        classFields).2

/-- Whether an action refers to existing things only. -/
def Allowed (image : Image) : Action → Prop
  | .noteDown _ => True
  | .meet _ => True
  | .draw _ => True
  | .makeArray elements => ∀ value ∈ elements, value.Exists image
  | .setElement _ _ value => value.Exists image
  | .makeBlock closure => image.Provides closure.body
  | .instantiate owner => image.classes.Has owner
  | .enter frame => frame.All (·.Exists image)
  | .setSlot _ _ _ value => value.Exists image
  | .leave _ => True
  | .readField receiver _ => receiver.Exists image
  | .writeField receiver _ value => receiver.Exists image ∧ value.Exists image
  | .readFieldAt site receiver index => receiver.Exists image ∧ image.AccessesField site index
  | .writeFieldAt site receiver index value =>
      receiver.Exists image ∧ value.Exists image ∧ image.AccessesField site index
  | .resolve site selector receiver => receiver.Exists image ∧ image.Sends site selector
  | .resolveSuper site origin selector => image.SendsSuper site origin selector
  | .settle _ => True
  | .bind _ value => value.Exists image
  | .allocate draft => image.sites.Grown draft.toSites
  | .install holder selector behavior =>
      image.classes.Has holder ∧ image.Fresh ({ holder, selector, behavior } : Method).body
  | .remove _ _ => True
  | .register _ superclass _ _ => image.classes.Has superclass

/-- Whether an action is one that evaluation itself takes.  Evaluation leaves the dictionaries and
the global names alone. -/
def Internal : Action → Prop
  | .bind _ _ => False
  | .allocate _ => False
  | .install _ _ _ => False
  | .remove _ _ => False
  | .register _ _ _ _ => False
  | _ => True

end Action

/-- The images that sequences of allowed actions lead to. -/
inductive Image.Reaches (start : Image) : List Action → Image → Prop
  | start : Reaches start [] start
  | act {actions : List Action} {image : Image} (action : Action) :
      Reaches start actions image → action.Allowed image →
        Reaches start (actions ++ [action]) (action.perform image)

theorem Image.Reaches.trans {start between final : Image} {earlier later : List Action}
    (before : start.Reaches earlier between) (after : between.Reaches later final) :
    start.Reaches (earlier ++ later) final := by
  induction after with
  | start => simpa using before
  | act action _ allowed inductionHypothesis =>
      rw [← List.append_assoc]
      exact .act action inductionHypothesis allowed

/-- A single allowed action. -/
theorem Image.Reaches.single {start : Image} {action : Action} (allowed : action.Allowed start) :
    start.Reaches [action] (action.perform start) :=
  .act action .start allowed

end MessageMachine
