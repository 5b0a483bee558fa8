import MessageMachine.Primitive.Reflection
import MessageMachine.Proofs.Correspondence.Rest

/-!
# Images that a program cannot tell apart

Everything that a program can observe of an image is the same in two images that resemble each
other: the class of a value, its text and its hash code, what a lookup finds, what a global name is
bound to, and what fields, arrays and slots hold.  The resemblance leaves open what the bodies of
methods and blocks look like, which frames blocks hold on to, what send sites and control sites
remember, the settings and the journal.  Each proof that two ways of running a program agree adds
what it needs to know about these.
-/

namespace MessageMachine

/-- Two behaviors of one kind.  For routines only the shape of their frames has to be the same. -/
inductive Behavior.Resembles : Behavior → Behavior → Prop
  | defined {routine other : Routine} : other.parameters = routine.parameters →
      other.temporaries = routine.temporaries → Resembles (.defined routine) (.defined other)
  | primitive (operation : Primitive) : Resembles (.primitive operation) (.primitive operation)
  | missing (title : String) : Resembles (.missing title) (.missing title)

theorem Behavior.Resembles.refl (behavior : Behavior) : behavior.Resembles behavior := by
  cases behavior with
  | defined routine => exact .defined rfl rfl
  | primitive operation => exact .primitive operation
  | missing title => exact .missing title

theorem Behavior.Resembles.symm {behavior other : Behavior} (alike : behavior.Resembles other) :
    other.Resembles behavior := by
  cases alike with
  | defined parameters temporaries => exact .defined parameters.symm temporaries.symm
  | primitive operation => exact .primitive operation
  | missing title => exact .missing title

theorem Behavior.Resembles.trans {first second third : Behavior} (alike : first.Resembles second)
    (further : second.Resembles third) : first.Resembles third := by
  cases alike with
  | defined parameters temporaries =>
      cases further with
      | defined parametersToo temporariesToo =>
          exact .defined (parametersToo.trans parameters) (temporariesToo.trans temporaries)
  | primitive operation => exact further
  | missing title => exact further

/-- Two methods under one name with behaviors of one kind. -/
structure Method.Resembles (method other : Method) : Prop where
  holder : other.holder = method.holder
  selector : other.selector = method.selector
  behavior : method.behavior.Resembles other.behavior

theorem Method.Resembles.isPrimitive {method other : Method} (alike : method.Resembles other) :
    other.isPrimitive = method.isPrimitive := by
  obtain ⟨holder, selector, behavior⟩ := method
  obtain ⟨otherHolder, otherSelector, otherBehavior⟩ := other
  cases alike.behavior <;> rfl

/-- Two frames with the same slots.  The frame around them and the receiver are left open: a block
that refers to nothing outside itself uses neither. -/
structure Frame.Resembles (frame other : Frame) : Prop where
  method : other.method = frame.method
  arguments : other.arguments = frame.arguments
  temporaries : other.temporaries = frame.temporaries
  live : other.live = frame.live

namespace Frame.Resembles

variable {frame other : Frame}

theorem slot? (alike : frame.Resembles other) (kind : SlotKind) (index : Nat) :
    other.slot? kind index = frame.slot? kind index := by
  cases kind with
  | argument => simp only [Frame.slot?, alike.arguments]
  | temporary => simp only [Frame.slot?, alike.temporaries]

theorem slotCount (alike : frame.Resembles other) (kind : SlotKind) :
    other.slotCount kind = frame.slotCount kind := by
  cases kind with
  | argument => simp only [Frame.slotCount, alike.arguments]
  | temporary => simp only [Frame.slotCount, alike.temporaries]

theorem setSlot (alike : frame.Resembles other) (kind : SlotKind) (index : Nat) (value : Value) :
    (frame.setSlot kind index value).Resembles (other.setSlot kind index value) := by
  cases kind with
  | argument => exact { alike with arguments := by simp only [Frame.setSlot, alike.arguments] }
  | temporary =>
      exact { alike with temporaries := by simp only [Frame.setSlot, alike.temporaries] }

theorem terminate (alike : frame.Resembles other) : frame.terminate.Resembles other.terminate :=
  { alike with live := rfl }

end Frame.Resembles

namespace Image

/-- Whether two images look the same to a program. -/
structure Resembles (image other : Image) : Prop where
  core : other.core = image.core
  globals : other.globals = image.globals
  classes : other.classes = image.classes
  shapes : other.shapes = image.shapes
  arrays : other.heap.arrays = image.heap.arrays
  objects : other.heap.objects = image.heap.objects
  fields : other.sites.fields = image.sites.fields
  version : other.sites.version = image.sites.version
  platform : other.platform = image.platform
  interner : other.interner = image.interner
  drawn : other.drawn = image.drawn
  methodCount : other.methods.size = image.methods.size
  methods : ∀ ref, (image.methodAt ref).Resembles (other.methodAt ref)
  blockCount : other.heap.blocks.size = image.heap.blocks.size
  parameters : ∀ ref, (other.blockAt ref).parameters = (image.blockAt ref).parameters
  temporaries : ∀ ref, (other.blockAt ref).temporaries = (image.blockAt ref).temporaries
  frameCount : other.heap.frames.size = image.heap.frames.size
  frames : ∀ ref, (image.frameAt ref).Resembles (other.frameAt ref)

namespace Resembles

theorem refl (image : Image) : image.Resembles image where
  core := rfl
  globals := rfl
  classes := rfl
  shapes := rfl
  arrays := rfl
  objects := rfl
  fields := rfl
  version := rfl
  platform := rfl
  interner := rfl
  drawn := rfl
  methodCount := rfl
  methods := fun _ => ⟨rfl, rfl, .refl _⟩
  blockCount := rfl
  parameters := fun _ => rfl
  temporaries := fun _ => rfl
  frameCount := rfl
  frames := fun _ => ⟨rfl, rfl, rfl, rfl⟩

variable {image other : Image}

theorem symm (alike : image.Resembles other) : other.Resembles image where
  core := alike.core.symm
  globals := alike.globals.symm
  classes := alike.classes.symm
  shapes := alike.shapes.symm
  arrays := alike.arrays.symm
  objects := alike.objects.symm
  fields := alike.fields.symm
  version := alike.version.symm
  platform := alike.platform.symm
  interner := alike.interner.symm
  drawn := alike.drawn.symm
  methodCount := alike.methodCount.symm
  methods := fun ref => {
    holder := (alike.methods ref).holder.symm
    selector := (alike.methods ref).selector.symm
    behavior := (alike.methods ref).behavior.symm }
  blockCount := alike.blockCount.symm
  parameters := fun ref => (alike.parameters ref).symm
  temporaries := fun ref => (alike.temporaries ref).symm
  frameCount := alike.frameCount.symm
  frames := fun ref => {
    method := (alike.frames ref).method.symm
    arguments := (alike.frames ref).arguments.symm
    temporaries := (alike.frames ref).temporaries.symm
    live := (alike.frames ref).live.symm }

/-- Images that resemble each other are the same but for what access to fields pays no attention
to. -/
theorem eq_withRest (alike : image.Resembles other) : other = image.withRest other.rest := by
  obtain ⟨platform, settings, core, globals, classes, shapes, methods, heap, sites, interner, drawn,
    journal⟩ := other
  obtain ⟨arrays, objects, blocks, frames⟩ := heap
  obtain ⟨calls, fields, controls, version⟩ := sites
  simp only [Image.withRest, Image.rest, Image.mk.injEq, Heap.mk.injEq, Sites.mk.injEq, true_and,
    and_true]
  exact ⟨alike.platform, alike.core, alike.globals, alike.classes, alike.shapes,
    ⟨alike.arrays, alike.objects⟩, ⟨alike.fields, alike.version⟩, alike.interner, alike.drawn⟩

theorem readField (alike : image.Resembles other) (receiver : Value) (index : Nat) :
    (other.readField receiver index).1 = (image.readField receiver index).1 := by
  rw [alike.eq_withRest]
  exact (image.readField_withRest _ receiver index).1

theorem writeField (alike : image.Resembles other) (receiver : Value) (index : Nat)
    (value : Value) :
    (other.writeField receiver index value).1 = (image.writeField receiver index value).1 := by
  rw [alike.eq_withRest]
  exact (image.writeField_withRest _ receiver index value).1

theorem readFieldAt (alike : image.Resembles other) (site : FieldSiteRef) (receiver : Value)
    (index : Nat) :
    (other.readFieldAt site receiver index).1 = (image.readFieldAt site receiver index).1 := by
  rw [alike.eq_withRest]
  exact (image.readFieldAt_withRest _ site receiver index).1

theorem writeFieldAt (alike : image.Resembles other) (site : FieldSiteRef) (receiver : Value)
    (index : Nat) (value : Value) :
    (other.writeFieldAt site receiver index value).1 =
      (image.writeFieldAt site receiver index value).1 := by
  rw [alike.eq_withRest]
  exact (image.writeFieldAt_withRest _ site receiver index value).1

theorem classAt (alike : image.Resembles other) (ref : ClassRef) :
    other.classAt ref = image.classAt ref := by
  simp only [Image.classAt, alike.classes]

theorem objectAt (alike : image.Resembles other) (ref : ObjectRef) :
    other.objectAt ref = image.objectAt ref := by
  simp only [Image.objectAt, alike.objects]

theorem arrayAt (alike : image.Resembles other) (ref : ArrayRef) :
    other.arrayAt ref = image.arrayAt ref := by
  simp only [Image.arrayAt, alike.arrays]

theorem isPrimitive (alike : image.Resembles other) (ref : MethodRef) :
    (other.methodAt ref).isPrimitive = (image.methodAt ref).isPrimitive :=
  (alike.methods ref).isPrimitive

theorem classOf (alike : image.Resembles other) (value : Value) :
    other.classOf value = image.classOf value := by
  cases value with
  | boolean truth => cases truth <;> simp only [Image.classOf, alike.core]
  | _ =>
      simp only [Image.classOf, alike.core, alike.parameters, alike.objectAt, alike.classAt,
        alike.isPrimitive]

theorem guardOf (alike : image.Resembles other) (value : Value) :
    other.guardOf value = image.guardOf value := by
  cases value with
  | boolean truth => cases truth <;> rfl
  | _ =>
      simp only [Image.guardOf, alike.parameters, alike.objectAt, alike.isPrimitive]

theorem lineageWithin (alike : image.Resembles other) (steps : Nat) (ref : ClassRef) :
    other.lineageWithin steps ref = image.lineageWithin steps ref := by
  induction steps generalizing ref with
  | zero => rfl
  | succ steps inductionHypothesis =>
      simp only [Image.lineageWithin, alike.classAt]
      cases (image.classAt ref).superclass with
      | none => rfl
      | some parent => exact congrArg (ref :: ·) (inductionHypothesis parent)

theorem lookup (alike : image.Resembles other) (ref : ClassRef) (selector : Selector) :
    other.lookup ref selector = image.lookup ref selector := by
  simp only [Image.lookup, Image.lineage, alike.lineageWithin, alike.classAt, alike.classes]

theorem lookupFor (alike : image.Resembles other) (value : Value) (selector : Selector) :
    other.lookupFor value selector = image.lookupFor value selector := by
  simp only [Image.lookupFor, alike.classOf, alike.lookup]

theorem global? (alike : image.Resembles other) (name : String) :
    other.global? name = image.global? name := by
  simp only [Image.global?, alike.globals]

theorem className (alike : image.Resembles other) (ref : ClassRef) :
    other.className ref = image.className ref := by
  simp only [Image.className, alike.classAt]

theorem methodName (alike : image.Resembles other) (ref : MethodRef) :
    other.methodName ref = image.methodName ref := by
  simp only [Image.methodName, alike.className, (alike.methods ref).holder,
    (alike.methods ref).selector]

theorem frameName (alike : image.Resembles other) (ref : FrameRef) :
    other.frameName ref = image.frameName ref := by
  simp only [Image.frameName, (alike.frames ref).method, alike.methodName]

theorem textWithin (alike : image.Resembles other) (depth : Nat) (value : Value) :
    other.textWithin depth value = image.textWithin depth value := by
  induction depth generalizing value with
  | zero =>
      cases value <;>
        simp only [Image.textWithin, alike.parameters, alike.className, alike.objectAt,
          alike.methodName]
  | succ depth inductionHypothesis =>
      cases value <;>
        simp only [Image.textWithin, alike.parameters, alike.className, alike.objectAt,
          alike.methodName, alike.arrayAt, funext inductionHypothesis]

theorem text? (alike : image.Resembles other) (value : Value) :
    other.text? value = image.text? value := by
  simp only [Image.text?, alike.arrays, alike.textWithin]

theorem hashcode? (alike : image.Resembles other) (value : Value) :
    other.hashcode? value = image.hashcode? value := by
  cases value <;>
    simp only [Image.hashcode?, alike.text?, alike.platform, alike.interner]

/-- The same values exist. -/
theorem exists_iff (alike : image.Resembles other) (value : Value) :
    value.Exists other ↔ value.Exists image := by
  cases value <;>
    simp only [Value.Exists, Arena.Has, alike.arrays, alike.blockCount, alike.objects,
      alike.classes, alike.methodCount]

/-- The next allocation of a block answers the same reference. -/
theorem nextBlock (alike : image.Resembles other) :
    other.heap.blocks.next = image.heap.blocks.next :=
  congrArg Ref.mk alike.blockCount

/-- The next allocation of a frame answers the same reference. -/
theorem nextFrame (alike : image.Resembles other) :
    other.heap.frames.next = image.heap.frames.next :=
  congrArg Ref.mk alike.frameCount

theorem frameAt_addFrame_next (alike : image.Resembles other) (frame : Frame) :
    (other.addFrame frame).frameAt image.heap.frames.next = frame := by
  rw [← alike.nextFrame]
  exact other.frameAt_addFrame_next frame

end Resembles

end Image

namespace Action

/-- The actions that are taken in step: each of them does the same to images that resemble each
other, whatever the resemblance leaves open. -/
def Common : Action → Prop
  | .meet _ => True
  | .draw _ => True
  | .makeArray _ => True
  | .setElement _ _ _ => True
  | .instantiate _ => True
  | .setSlot _ _ _ _ => True
  | .leave _ => True
  | .readField _ _ => True
  | .writeField _ _ _ => True
  | .readFieldAt _ _ _ => True
  | .writeFieldAt _ _ _ _ => True
  | .resolve _ _ _ => True
  | .resolveSuper _ _ _ => True
  | .settle _ => True
  | _ => False

theorem Common.internal {action : Action} (common : action.Common) : action.Internal := by
  cases action <;> trivial

end Action

namespace Image

/-- What actions that are taken in step leave alone: prepared code and the sites allocated for it,
blocks, and where each frame belongs. -/
structure SameScaffold (before after : Image) : Prop where
  settings : after.settings = before.settings
  methods : after.methods = before.methods
  callCount : after.sites.calls.size = before.sites.calls.size
  blocks : after.heap.blocks = before.heap.blocks
  frameCount : after.heap.frames.size = before.heap.frames.size
  parents : ∀ ref, (after.frameAt ref).parent = (before.frameAt ref).parent
  receivers : ∀ ref, (after.frameAt ref).receiver = (before.frameAt ref).receiver

namespace SameScaffold

theorem of_eq {before after : Image} (settings : after.settings = before.settings)
    (methods : after.methods = before.methods)
    (callCount : after.sites.calls.size = before.sites.calls.size)
    (blocks : after.heap.blocks = before.heap.blocks)
    (frames : after.heap.frames = before.heap.frames) : before.SameScaffold after where
  settings := settings
  methods := methods
  callCount := callCount
  blocks := blocks
  frameCount := congrArg Arena.size frames
  parents := fun ref => by rw [frameAt, frames, ← frameAt]
  receivers := fun ref => by rw [frameAt, frames, ← frameAt]

theorem refl (image : Image) : image.SameScaffold image :=
  .of_eq rfl rfl rfl rfl rfl

theorem note (image : Image) (describe : Image → Event) :
    image.SameScaffold (image.note describe) := by
  rw [note_eq]
  exact .of_eq rfl rfl rfl rfl rfl

theorem of_tended {good : Value → Prop} {before after : Image}
    (tended : Tended good before after) : before.SameScaffold after :=
  .of_eq tended.settings tended.methods (congrArg Arena.size tended.calls) tended.blocks
    tended.frames

/-- Changing the slots or the liveness of a frame leaves the scaffold alone. -/
theorem changeFrame (image : Image) (ref : FrameRef) {change : Frame → Frame}
    (parent : ∀ frame, (change frame).parent = frame.parent)
    (receiver : ∀ frame, (change frame).receiver = frame.receiver) :
    image.SameScaffold (image.changeFrame ref change) where
  settings := rfl
  methods := rfl
  callCount := rfl
  blocks := rfl
  frameCount := Arena.size_modify _ _ _
  parents := fun other => by
    simp only [Image.changeFrame, frameAt, Arena.get_modify]
    split
    · exact parent _
    · rfl
  receivers := fun other => by
    simp only [Image.changeFrame, frameAt, Arena.get_modify]
    split
    · exact receiver _
    · rfl

end SameScaffold

end Image

namespace Action.Common

variable {image : Image} {action : Action}

theorem sameScaffold (common : action.Common) :
    image.SameScaffold (action.perform image) := by
  -- The scaffold is left alone whatever the values are that fields get to hold.
  have anything : ∀ value : Value, value.IsPlain → value.IsNormal → True :=
    fun _ _ _ => trivial
  cases action with
  | setSlot frame kind index value =>
      exact .changeFrame image frame (fun _ => by cases kind <;> rfl)
        (fun _ => by cases kind <;> rfl)
  | leave frame => exact .changeFrame image frame (fun _ => rfl) (fun _ => rfl)
  | readField receiver index =>
      exact .of_tended (Image.readField_tended anything image receiver index)
  | writeField receiver index value =>
      exact .of_tended (Image.writeField_tended anything image receiver index trivial)
  | readFieldAt site receiver index =>
      exact .of_tended (Image.readFieldAt_tended anything image site receiver index)
  | writeFieldAt site receiver index value =>
      exact .of_tended (Image.writeFieldAt_tended anything image site receiver index trivial)
  | resolve site selector receiver =>
      obtain ⟨calls, journal, count, result⟩ := image.lookupAt_eq site selector receiver
      rw [perform, result]
      exact .of_eq rfl rfl count rfl rfl
  | resolveSuper site origin selector =>
      obtain ⟨calls, count, result⟩ := image.lookupSuperAt_eq site origin selector
      rw [perform, result]
      exact .of_eq rfl rfl count rfl rfl
  | meet _ => exact .of_eq rfl rfl rfl rfl rfl
  | draw _ => exact .of_eq rfl rfl rfl rfl rfl
  | makeArray _ => exact .of_eq rfl rfl rfl rfl rfl
  | setElement _ _ _ => exact .of_eq rfl rfl rfl rfl rfl
  | instantiate _ => exact .of_eq rfl rfl rfl rfl rfl
  | settle _ => exact .of_eq rfl rfl rfl rfl rfl
  | _ => exact common.elim

end Action.Common

namespace Image.Resembles

variable {image other : Image}

/-- Access to fields changes nothing that the resemblance leaves open, but for the journal. -/
theorem of_tended {good : Value → Prop} {after : Image} (alike : image.Resembles other)
    (tended : Tended good image after) (journal : Journal) :
    after.Resembles (after.withRest { other.rest with journal }) where
  core := rfl
  globals := rfl
  classes := rfl
  shapes := rfl
  arrays := rfl
  objects := rfl
  fields := rfl
  version := rfl
  platform := rfl
  interner := rfl
  drawn := rfl
  methodCount := alike.methodCount.trans (congrArg Arena.size tended.methods).symm
  methods := fun ref => by
    rw [methodAt, tended.methods, ← methodAt]
    exact alike.methods ref
  blockCount := alike.blockCount.trans (congrArg Arena.size tended.blocks).symm
  parameters := fun ref => (alike.parameters ref).trans
    (congrArg (fun blocks => (Arena.get blocks ref).parameters) tended.blocks).symm
  temporaries := fun ref => (alike.temporaries ref).trans
    (congrArg (fun blocks => (Arena.get blocks ref).temporaries) tended.blocks).symm
  frameCount := alike.frameCount.trans (congrArg Arena.size tended.frames).symm
  frames := fun ref => by
    rw [frameAt, tended.frames, ← frameAt]
    exact alike.frames ref

/-- Accesses to fields that answer alike leave images that resemble each other. -/
theorem of_access {Answer : Type} {good : Value → Prop} (alike : image.Resembles other)
    (access : Image → Answer × Image) (tended : Tended good image (access image).2)
    (accessed : AlikeResults other.rest (access image) (access (image.withRest other.rest))) :
    (access image).2.Resembles (access other).2 := by
  obtain ⟨-, journal, same⟩ := accessed
  rw [← alike.eq_withRest] at same
  rw [same]
  exact alike.of_tended tended journal

theorem changeFrame (alike : image.Resembles other) (ref : FrameRef) {change : Frame → Frame}
    (changed : ∀ frame otherFrame, frame.Resembles otherFrame →
      (change frame).Resembles (change otherFrame)) :
    (image.changeFrame ref change).Resembles (other.changeFrame ref change) :=
  { alike with
    frameCount := by
      simp only [Image.changeFrame, Arena.size_modify]
      exact alike.frameCount
    frames := fun frame => by
      have same : other.heap.frames.Has frame ↔ image.heap.frames.Has frame := by
        simp only [Arena.Has, alike.frameCount]
      simp only [Image.changeFrame, frameAt, Arena.get_modify, same]
      split
      · exact changed _ _ (alike.frames frame)
      · exact alike.frames frame }

/-- Actions that are taken in step keep up the resemblance. -/
theorem perform {action : Action} (alike : image.Resembles other) (common : action.Common)
    (allowed : action.Allowed image) :
    (action.perform image).Resembles (action.perform other) := by
  cases action with
  | meet names =>
      exact { alike with interner := by simp only [Action.perform, meetAll, alike.interner] }
  | draw bound => exact { alike with drawn := by simp only [Action.perform, alike.drawn] }
  | makeArray elements =>
      exact { alike with arrays := by simp only [Action.perform, addArray, alike.arrays] }
  | setElement ref place value =>
      exact { alike with arrays := by simp only [Action.perform, setElement, alike.arrays] }
  | instantiate owner =>
      exact { alike with
        objects := by
          simp only [Action.perform, instantiate, alike.objects, alike.classAt, shapeAt,
            alike.shapes] }
  | setSlot frame kind index value =>
      exact alike.changeFrame frame fun _ _ same => same.setSlot kind index value
  | leave frame => exact alike.changeFrame frame fun _ _ same => same.terminate
  | readField receiver index =>
      exact alike.of_access (fun image => image.readField receiver index)
        (Action.readField_tended image receiver index) (image.readField_withRest _ receiver index)
  | writeField receiver index value =>
      exact alike.of_access (fun image => image.writeField receiver index value)
        (Action.writeField_tended allowed.2 receiver index)
        (image.writeField_withRest _ receiver index value)
  | readFieldAt site receiver index =>
      exact alike.of_access (fun image => image.readFieldAt site receiver index)
        (Action.readFieldAt_tended image site receiver index)
        (image.readFieldAt_withRest _ site receiver index)
  | writeFieldAt site receiver index value =>
      exact alike.of_access (fun image => image.writeFieldAt site receiver index value)
        (Action.writeFieldAt_tended allowed.2.1 site receiver index)
        (image.writeFieldAt_withRest _ site receiver index value)
  | resolve site selector receiver =>
      obtain ⟨calls, journal, -, result⟩ := image.lookupAt_eq site selector receiver
      obtain ⟨callsToo, journalToo, -, resultToo⟩ := other.lookupAt_eq site selector receiver
      rw [Action.perform, Action.perform, result, resultToo]
      exact { alike with }
  | resolveSuper site origin selector =>
      obtain ⟨calls, -, result⟩ := image.lookupSuperAt_eq site origin selector
      obtain ⟨callsToo, -, resultToo⟩ := other.lookupSuperAt_eq site origin selector
      rw [Action.perform, Action.perform, result, resultToo]
      exact { alike with }
  | settle site => exact { alike with }
  | _ => exact common.elim

theorem addBlock (alike : image.Resembles other) {closure closureToo : Closure}
    (parameters : closureToo.parameters = closure.parameters)
    (temporaries : closureToo.temporaries = closure.temporaries) :
    (image.addBlock closure).Resembles (other.addBlock closureToo) :=
  { alike with
    blockCount := by simp only [Image.addBlock, Arena.size_push, alike.blockCount]
    parameters := fun ref => by
      simp only [Image.addBlock, blockAt, Arena.get_push, alike.nextBlock]
      split
      · exact parameters
      · exact alike.parameters ref
    temporaries := fun ref => by
      simp only [Image.addBlock, blockAt, Arena.get_push, alike.nextBlock]
      split
      · exact temporaries
      · exact alike.temporaries ref }

theorem addFrame (alike : image.Resembles other) {frame frameToo : Frame}
    (same : frame.Resembles frameToo) :
    (image.addFrame frame).Resembles (other.addFrame frameToo) :=
  { alike with
    frameCount := by simp only [Image.addFrame, Arena.size_push, alike.frameCount]
    frames := fun ref => by
      simp only [Image.addFrame, frameAt, Arena.get_push, alike.nextFrame]
      split
      · exact same
      · exact alike.frames ref }

theorem note (alike : image.Resembles other) (describe describeToo : Image → Event) :
    (image.note describe).Resembles (other.note describeToo) := by
  rw [note_eq image, note_eq other]
  exact { alike with }

theorem setGlobal (alike : image.Resembles other) (name : String) (value : Value) :
    (image.setGlobal name value).2.Resembles (other.setGlobal name value).2 :=
  { alike with
    globals := by simp only [Image.setGlobal, alike.globals]
    interner := by simp only [Image.setGlobal, meet, alike.interner] }

theorem register (alike : image.Resembles other) (name : String) (superclass : ClassRef)
    (fields classFields : List String) :
    ((Action.register name superclass fields classFields).perform image).Resembles
      ((Action.register name superclass fields classFields).perform other) := by
  have sameMetaclass : other.newMetaclass name superclass classFields =
      image.newMetaclass name superclass classFields := by
    simp only [newMetaclass, alike.core, alike.classAt, alike.shapes]
  have sameClass : other.newClass name superclass fields classFields =
      image.newClass name superclass fields classFields := by
    simp only [newClass, sameMetaclass, alike.classAt, alike.shapes, alike.classes]
  simp only [Action.perform, registerPair_eq, sameMetaclass, sameClass, alike.classes,
    alike.shapes]
  exact { alike with classes := rfl, shapes := rfl }

theorem addMethod (alike : image.Resembles other) (holder : ClassRef) (selector : Selector)
    {behavior behaviorToo : Behavior} (same : behavior.Resembles behaviorToo) :
    (image.addMethod holder selector behavior).Resembles
      (other.addMethod holder selector behaviorToo) := by
  obtain ⟨journal, result⟩ := image.addMethod_eq holder selector behavior
  obtain ⟨journalToo, resultToo⟩ := other.addMethod_eq holder selector behaviorToo
  have next : other.methods.next = image.methods.next := congrArg Ref.mk alike.methodCount
  rw [result, resultToo]
  exact { alike with
    classes := by simp only [alike.classes, next]
    version := by simp only [alike.version]
    interner := by simp only [alike.interner]
    methodCount := by simp only [Arena.size_push, alike.methodCount]
    methods := fun ref => by
      simp only [methodAt, Arena.get_push, next]
      split
      · exact ⟨rfl, rfl, same⟩
      · exact alike.methods ref }

theorem removeMethod (alike : image.Resembles other) (holder : ClassRef) (selector : Selector) :
    (image.removeMethod holder selector).2.Resembles (other.removeMethod holder selector).2 :=
  { alike with classes := by simp only [Image.removeMethod, modifyClass, alike.classes] }

/-- Drafts that were extended side by side keep up the resemblance. -/
theorem adopt (alike : image.Resembles other) {draft draftToo : Draft}
    (fields : draftToo.fields = draft.fields) (version : draftToo.version = draft.version)
    (interner : draftToo.interner = draft.interner) :
    (image.adopt draft).Resembles (other.adopt draftToo) :=
  { alike with fields, version, interner }

end Image.Resembles

end MessageMachine
