import Mathlib.Logic.Relation
import MessageMachine.Proofs.Lookup

/-!
# What an image retains

Whatever a machine does to its image, some things about what exists stay as they are.  Classes keep
their names, superclasses and fields, objects their classes, blocks everything, and frames their
receivers, their surroundings and the number of their slots.  So values keep their classes, and
classes their ancestors.
-/

namespace MessageMachine

/-- A class without what changes about it: its dictionary, its shape and the values of its own
fields. -/
def Class.nature (type : Class) : Class :=
  { type with values := #[], methods := .empty, shape := default }

theorem Class.nature_of_bare {type other : Class} (same : type.bare = other.bare) :
    type.nature = other.nature :=
  congrArg (fun bare : Class => { bare with methods := .empty }) same

namespace Image

/-- Whether a class has another one among its ancestors, itself included. -/
def Descends (image : Image) : ClassRef → ClassRef → Prop :=
  Relation.ReflTransGen fun ref parent =>
    image.classes.Has ref ∧ (image.classAt ref).superclass = some parent

/-- What an image has in common with an earlier one. -/
structure Retains (before after : Image) : Prop where
  extended : before.Extends after
  core : after.core = before.core
  natures : ∀ ref, before.classes.Has ref →
    (after.classAt ref).nature = (before.classAt ref).nature
  owners : ∀ ref, before.heap.objects.Has ref →
    (after.objectAt ref).owner = (before.objectAt ref).owner
  blocks : ∀ ref, before.heap.blocks.Has ref → after.blockAt ref = before.blockAt ref
  parents : ∀ ref, before.heap.frames.Has ref →
    (after.frameAt ref).parent = (before.frameAt ref).parent
  receivers : ∀ ref, before.heap.frames.Has ref →
    (after.frameAt ref).receiver = (before.frameAt ref).receiver
  slots : ∀ ref, before.heap.frames.Has ref → ∀ kind,
    (after.frameAt ref).slotCount kind = (before.frameAt ref).slotCount kind

namespace Retains

variable {before between after : Image}

theorem refl (image : Image) : image.Retains image where
  extended := .refl image
  core := rfl
  natures := fun _ _ => rfl
  owners := fun _ _ => rfl
  blocks := fun _ _ => rfl
  parents := fun _ _ => rfl
  receivers := fun _ _ => rfl
  slots := fun _ _ _ => rfl

theorem trans (first : before.Retains between) (second : between.Retains after) :
    before.Retains after where
  extended := first.extended.trans second.extended
  core := second.core.trans first.core
  natures := fun ref old =>
    (second.natures ref (Nat.lt_of_lt_of_le old first.extended.classes)).trans
      (first.natures ref old)
  owners := fun ref old =>
    (second.owners ref (Nat.lt_of_lt_of_le old first.extended.objects)).trans
      (first.owners ref old)
  blocks := fun ref old =>
    (second.blocks ref (Nat.lt_of_lt_of_le old first.extended.blocks)).trans
      (first.blocks ref old)
  parents := fun ref old =>
    (second.parents ref (Nat.lt_of_lt_of_le old first.extended.frames)).trans
      (first.parents ref old)
  receivers := fun ref old =>
    (second.receivers ref (Nat.lt_of_lt_of_le old first.extended.frames)).trans
      (first.receivers ref old)
  slots := fun ref old kind =>
    (second.slots ref (Nat.lt_of_lt_of_le old first.extended.frames) kind).trans
      (first.slots ref old kind)

/-- Where only the classes and the objects are different, and those only in storage. -/
theorem of_tended {good : Value → Prop} (tended : Tended good before after) :
    before.Retains after where
  extended := tended.extended
  core := tended.core
  natures := fun ref _ => Class.nature_of_bare (tended.classes ref)
  owners := fun ref _ => tended.owners ref
  blocks := fun ref _ => by rw [blockAt, tended.blocks, ← blockAt]
  parents := fun ref _ => by rw [frameAt, tended.frames, ← frameAt]
  receivers := fun ref _ => by rw [frameAt, tended.frames, ← frameAt]
  slots := fun ref _ _ => by rw [frameAt, tended.frames, ← frameAt]

/-- A frame that is changed keeps what a frame keeps. -/
theorem of_changeFrame {image : Image} {ref : FrameRef} {change : Frame → Frame}
    (extended : image.Extends (image.changeFrame ref change))
    (parent : ∀ frame, (change frame).parent = frame.parent)
    (receiver : ∀ frame, (change frame).receiver = frame.receiver)
    (slots : ∀ frame kind, (change frame).slotCount kind = frame.slotCount kind) :
    image.Retains (image.changeFrame ref change) := by
  have cases' : ∀ other, (image.changeFrame ref change).frameAt other = image.frameAt other ∨
      (image.changeFrame ref change).frameAt other = change (image.frameAt other) := by
    intro other
    simp only [changeFrame, frameAt, Arena.get_modify]
    split
    · exact Or.inr rfl
    · exact Or.inl rfl
  refine { refl image with
    extended := extended
    parents := fun other _ => ?_
    receivers := fun other _ => ?_
    slots := fun other _ kind => ?_ }
  · rcases cases' other with same | changed
    · rw [same]
    · rw [changed, parent]
  · rcases cases' other with same | changed
    · rw [same]
    · rw [changed, receiver]
  · rcases cases' other with same | changed
    · rw [same]
    · rw [changed, slots]

theorem addFrame (image : Image) (frame : Frame) : image.Retains (image.addFrame frame) := by
  have found : ∀ ref, image.heap.frames.Has ref →
      (image.addFrame frame).frameAt ref = image.frameAt ref :=
    fun ref old => Arena.get_push_of_has _ old
  have more : image.heap.frames.size ≤ (image.addFrame frame).heap.frames.size := by
    simp [Image.addFrame]
  exact { refl image with
    extended := { Extends.refl image with frames := more }
    parents := fun ref old => congrArg Frame.parent (found ref old)
    receivers := fun ref old => congrArg Frame.receiver (found ref old)
    slots := fun ref old kind => congrArg (Frame.slotCount · kind) (found ref old) }

theorem superclass (retains : before.Retains after) {ref : ClassRef}
    (known : before.classes.Has ref) :
    (after.classAt ref).superclass = (before.classAt ref).superclass :=
  have same := congrArg Class.superclass (retains.natures ref known)
  same

theorem fieldNames (retains : before.Retains after) {ref : ClassRef}
    (known : before.classes.Has ref) :
    (after.classAt ref).fields = (before.classAt ref).fields :=
  have same := congrArg Class.fields (retains.natures ref known)
  same

theorem name (retains : before.Retains after) {ref : ClassRef} (known : before.classes.Has ref) :
    (after.classAt ref).name = (before.classAt ref).name :=
  have same := congrArg Class.name (retains.natures ref known)
  same

/-- Ancestors stay ancestors. -/
theorem descends (retains : before.Retains after) {ref ancestor : ClassRef}
    (descends : before.Descends ref ancestor) : after.Descends ref ancestor := by
  induction descends with
  | refl => exact .refl
  | tail _ step inductionHypothesis =>
      refine .tail inductionHypothesis ⟨?_, ?_⟩
      · exact Nat.lt_of_lt_of_le step.1 retains.extended.classes
      · rw [retains.superclass step.1, step.2]

/-- A class that existed gets no new ancestors. -/
theorem descended (retains : before.Retains after) (formed : before.WellFormed)
    {ref ancestor : ClassRef} (known : before.classes.Has ref)
    (descends : after.Descends ref ancestor) :
    before.Descends ref ancestor ∧ before.classes.Has ancestor := by
  induction descends with
  | refl => exact ⟨.refl, known⟩
  | @tail child parent _ step inductionHypothesis =>
      obtain ⟨earlier, knownChild⟩ := inductionHypothesis
      have found := step.2
      rw [retains.superclass knownChild] at found
      exact ⟨.tail earlier ⟨knownChild, found⟩, formed.within.superclasses child parent found⟩

/-- Values keep their classes. -/
theorem classOf (retains : before.Retains after) {value : Value} (known : value.Exists before) :
    after.classOf value = before.classOf value := by
  cases value with
  | boolean truth => cases truth <;> simp only [Image.classOf, retains.core]
  | block ref => simp only [Image.classOf, retains.core, retains.blocks ref known]
  | object ref => simp only [Image.classOf, retains.owners ref known]
  | classObject ref =>
      have same := congrArg Class.instanceOf (retains.natures ref known)
      exact same
  | method ref => simp only [Image.classOf, retains.core, retains.extended.bodies ref known]
  | _ => simp only [Image.classOf, retains.core]

end Retains

/-- A class on the way up is an ancestor. -/
theorem descends_of_mem_lineageWithin {image : Image} (formed : image.WellFormed) {steps : Nat}
    {ref ancestor : ClassRef} (known : image.classes.Has ref)
    (member : ancestor ∈ image.lineageWithin steps ref) : image.Descends ref ancestor := by
  induction steps generalizing ref with
  | zero => cases member
  | succ steps inductionHypothesis =>
      simp only [lineageWithin] at member
      split at member
      · next superclass found =>
          rcases List.mem_cons.mp member with rfl | above
          · exact .refl
          · have parent := formed.within.superclasses ref superclass found
            exact .head ⟨known, found⟩ (inductionHypothesis parent above)
      · cases List.mem_singleton.mp member
        exact .refl

end Image

/-- Every allowed action lets an image retain what it has to. -/
theorem Action.retains_perform {image : Image} {action : Action} (allowed : action.Allowed image) :
    image.Retains (action.perform image) := by
  have extended := extends_perform allowed
  have same := Image.Retains.refl image
  cases action with
  | noteDown journal => exact { same with extended }
  | meet names => exact { same with extended }
  | draw bound => exact { same with extended }
  | makeArray elements => exact { same with extended }
  | setElement ref place value => exact { same with extended }
  | settle site => exact { same with extended }
  | bind name value => exact { same with extended }
  | allocate draft => exact { same with extended }
  | makeBlock closure =>
      refine { same with extended, blocks := fun ref old => ?_ }
      exact Arena.get_push_of_has _ old
  | instantiate owner =>
      refine { same with extended, owners := fun ref old => ?_ }
      exact congrArg Instance.owner (Arena.get_push_of_has _ old)
  | enter frame => exact .addFrame image frame
  | setSlot ref kind index value =>
      refine .of_changeFrame extended (fun frame => ?_) (fun frame => ?_) fun frame other => ?_
      · cases kind <;> rfl
      · cases kind <;> rfl
      · cases kind <;> cases other <;> simp [Frame.setSlot, Frame.slotCount]
  | leave ref =>
      refine .of_changeFrame extended (fun _ => rfl) (fun _ => rfl) fun frame kind => ?_
      cases kind <;> rfl
  | readField receiver index => exact .of_tended (readField_tended image receiver index)
  | writeField receiver index value =>
      exact .of_tended (writeField_tended allowed.2 receiver index)
  | readFieldAt site receiver index =>
      exact .of_tended (readFieldAt_tended image site receiver index)
  | writeFieldAt site receiver index value =>
      exact .of_tended (writeFieldAt_tended allowed.2.1 site receiver index)
  | resolve site selector receiver =>
      obtain ⟨calls, journal, -, result⟩ := image.lookupAt_eq site selector receiver
      simp only [perform, result] at extended ⊢
      exact { same with extended }
  | resolveSuper site origin selector =>
      obtain ⟨calls, -, result⟩ := image.lookupSuperAt_eq site origin selector
      simp only [perform, result] at extended ⊢
      exact { same with extended }
  | install holder selector behavior =>
      have natures : ∀ ref,
          (((install holder selector behavior).perform image).classAt ref).nature =
            (image.classAt ref).nature := by
        intro ref
        rcases image.classAt_install_cases holder selector behavior ref with same | ⟨-, changed⟩
        · rw [same]
        · rw [changed]
          rfl
      obtain ⟨journal, installed⟩ := image.addMethod_eq holder selector behavior
      simp only [perform, installed] at extended natures ⊢
      exact { same with extended, natures := fun ref _ => natures ref }
  | remove holder selector =>
      refine { same with extended, natures := fun ref _ => ?_ }
      rcases image.classAt_remove_cases holder selector ref with same | changed
      · rw [same]
      · rw [changed]
        rfl
  | register name superclass fields classFields =>
      have natures : ∀ ref, image.classes.Has ref →
          (((register name superclass fields classFields).perform image).classAt ref).nature =
            (image.classAt ref).nature := fun ref old =>
        congrArg Class.nature (image.classAt_register_of_has name superclass fields classFields old)
      exact { same with extended, natures }

end MessageMachine
