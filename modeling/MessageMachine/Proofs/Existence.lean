import MessageMachine.Code.Outline
import MessageMachine.Machine.Bootstrap
import MessageMachine.Proofs.Tables

/-!
# Nothing dangles

In a well-formed image every reference leads to something that was allocated, and every node of
prepared code that can still run belongs to a method.  Methods are never dropped from their arena,
not even when a dictionary forgets them, so that the nodes of an image only become more.  A block
needs no nodes of its own: its body is a part of the method that it was written in.

The sites of two nodes are never shared.  What a site remembers therefore says something about one
node only, which is what the soundness of inline caches and of remembered field locations rests on.
-/

namespace MessageMachine

/-- Whether a value carries no reference. -/
def Value.IsPlain : Value → Prop
  | .array _ => False
  | .block _ => False
  | .object _ => False
  | .classObject _ => False
  | .method _ => False
  | _ => True

/-- Whether what a value refers to exists. -/
def Value.Exists (image : Image) : Value → Prop
  | .array ref => image.heap.arrays.Has ref
  | .block ref => image.heap.blocks.Has ref
  | .object ref => image.heap.objects.Has ref
  | .classObject ref => image.classes.Has ref
  | .method ref => image.methods.Has ref
  | _ => True

instance (image : Image) (value : Value) : Decidable (value.Exists image) :=
  match value with
  | .array ref => inferInstanceAs (Decidable (image.heap.arrays.Has ref))
  | .block ref => inferInstanceAs (Decidable (image.heap.blocks.Has ref))
  | .object ref => inferInstanceAs (Decidable (image.heap.objects.Has ref))
  | .classObject ref => inferInstanceAs (Decidable (image.classes.Has ref))
  | .method ref => inferInstanceAs (Decidable (image.methods.Has ref))
  | .nil => .isTrue trivial
  | .boolean _ => .isTrue trivial
  | .integer _ => .isTrue trivial
  | .big _ => .isTrue trivial
  | .double _ => .isTrue trivial
  | .symbol _ => .isTrue trivial
  | .string _ => .isTrue trivial

theorem Value.IsPlain.exists {value : Value} (plain : value.IsPlain) (image : Image) :
    value.Exists image := by
  cases value <;> trivial

theorem Value.exists_ofInt (number : Int) (image : Image) : (Value.ofInt number).Exists image := by
  unfold Value.ofInt
  split <;> trivial

namespace OutlineNode

/-- The send site of a node. -/
def callSite? : OutlineNode → Option CallSiteRef
  | .send site _ => some site
  | .superSend site _ _ => some site
  | .control _ _ site _ => some site
  | _ => none

/-- The field site of a node. -/
def fieldSite? : OutlineNode → Option FieldSiteRef
  | .read site _ => some site
  | .write site _ => some site
  | _ => none

/-- The class at which the lookup of a send to super starts. -/
def origin? : OutlineNode → Option ClassRef
  | .superSend _ origin _ => some origin
  | _ => none

/-- A control node stands for the selector of its message. -/
def Named : OutlineNode → Prop
  | .control _ message _ selector => selector = message.selector
  | _ => True

/-- Whether the sites and the class that a node refers to exist. -/
structure Placed (image : Image) (node : OutlineNode) : Prop where
  call : ∀ site, node.callSite? = some site → image.sites.calls.Has site
  field : ∀ site, node.fieldSite? = some site → image.sites.fields.Has site
  origin : ∀ origin, node.origin? = some origin → image.classes.Has origin
  named : node.Named

end OutlineNode

namespace Image

/-- The nodes of the methods of an image. -/
def Outlines (image : Image) (node : OutlineNode) : Prop :=
  ∃ ref, node ∈ Code.outlineAll (image.methodAt ref).body

/-- Whether a field site belongs to accesses to the field with a given index. -/
def AccessesField (image : Image) (site : FieldSiteRef) (index : Nat) : Prop :=
  image.Outlines (.read site index) ∨ image.Outlines (.write site index)

/-- Whether a send site belongs to a send, or to a control message, with a given selector. -/
def Sends (image : Image) (site : CallSiteRef) (selector : Selector) : Prop :=
  image.Outlines (.send site selector) ∨
    ∃ controlSite message, image.Outlines (.control controlSite message site selector)

/-- Whether a send site belongs to a send to super. -/
def SendsSuper (image : Image) (site : CallSiteRef) (origin : ClassRef) (selector : Selector) :
    Prop :=
  image.Outlines (.superSend site origin selector)

/-- Whether an image is a later state of another one, as far as existence goes: nothing that was
allocated is gone, and methods are what they were. -/
structure Extends (before after : Image) : Prop where
  arrays : before.heap.arrays.size ≤ after.heap.arrays.size
  objects : before.heap.objects.size ≤ after.heap.objects.size
  blocks : before.heap.blocks.size ≤ after.heap.blocks.size
  frames : before.heap.frames.size ≤ after.heap.frames.size
  classes : before.classes.size ≤ after.classes.size
  methods : before.methods.size ≤ after.methods.size
  calls : before.sites.calls.size ≤ after.sites.calls.size
  fields : before.sites.fields.size ≤ after.sites.fields.size
  bodies : ∀ ref, before.methods.Has ref → after.methodAt ref = before.methodAt ref

namespace Extends

theorem refl (image : Image) : image.Extends image where
  arrays := Nat.le_refl _
  objects := Nat.le_refl _
  blocks := Nat.le_refl _
  frames := Nat.le_refl _
  classes := Nat.le_refl _
  methods := Nat.le_refl _
  calls := Nat.le_refl _
  fields := Nat.le_refl _
  bodies := fun _ _ => rfl

theorem trans {before between after : Image} (earlier : before.Extends between)
    (later : between.Extends after) : before.Extends after where
  arrays := Nat.le_trans earlier.arrays later.arrays
  objects := Nat.le_trans earlier.objects later.objects
  blocks := Nat.le_trans earlier.blocks later.blocks
  frames := Nat.le_trans earlier.frames later.frames
  classes := Nat.le_trans earlier.classes later.classes
  methods := Nat.le_trans earlier.methods later.methods
  calls := Nat.le_trans earlier.calls later.calls
  fields := Nat.le_trans earlier.fields later.fields
  bodies := fun ref old =>
    (later.bodies ref (Nat.lt_of_lt_of_le old earlier.methods)).trans (earlier.bodies ref old)

end Extends

end Image

/-- What exists goes on existing. -/
theorem Value.Exists.mono {value : Value} {before after : Image} (known : value.Exists before)
    (later : before.Extends after) : value.Exists after := by
  cases value with
  | array ref => exact Nat.lt_of_lt_of_le known later.arrays
  | block ref => exact Nat.lt_of_lt_of_le known later.blocks
  | object ref => exact Nat.lt_of_lt_of_le known later.objects
  | classObject ref => exact Nat.lt_of_lt_of_le known later.classes
  | method ref => exact Nat.lt_of_lt_of_le known later.methods
  | _ => trivial

/-- A method that was never allocated has no body, so that every node comes from a method that
exists. -/
theorem Image.has_of_mem_outline {image : Image} {ref : MethodRef} {node : OutlineNode}
    (member : node ∈ Code.outlineAll (image.methodAt ref).body) : image.methods.Has ref := by
  by_cases old : image.methods.Has ref
  · exact old
  · unfold Image.methodAt at member
    rw [Arena.get_of_not_has old] at member
    cases member

theorem Image.Outlines.mono {node : OutlineNode} {before after : Image}
    (known : before.Outlines node) (later : before.Extends after) : after.Outlines node := by
  obtain ⟨ref, member⟩ := known
  refine ⟨ref, ?_⟩
  rw [later.bodies ref (Image.has_of_mem_outline member)]
  exact member

theorem OutlineNode.Placed.mono {node : OutlineNode} {before after : Image}
    (known : node.Placed before) (later : before.Extends after) : node.Placed after where
  call := fun site found => Nat.lt_of_lt_of_le (known.call site found) later.calls
  field := fun site found => Nat.lt_of_lt_of_le (known.field site found) later.fields
  origin := fun origin found => Nat.lt_of_lt_of_le (known.origin origin found) later.classes
  named := known.named

/-- What holds of every value that is stored in an instance as a value. -/
structure Instance.All (good : Value → Prop) (store : Instance) : Prop where
  references : ∀ (index : Nat) value, store.references[index]? = some value → good value
  overflow : ∀ (index : Nat) value, store.overflow[index]? = some value → good value

/-- What holds of every value of a frame. -/
structure Frame.All (good : Value → Prop) (frame : Frame) : Prop where
  receiver : good frame.receiver
  arguments : ∀ value ∈ frame.arguments, good value
  temporaries : ∀ value ∈ frame.temporaries, good value

namespace Image

/-- Everything that an image refers to exists in a scope. -/
structure Within (scope image : Image) : Prop where
  core : ∀ ref ∈ image.core.inOrder, scope.classes.Has ref
  globals : ∀ value ∈ image.globals.values, value.Exists scope
  superclasses : ∀ ref parent, (image.classAt ref).superclass = some parent →
    scope.classes.Has parent
  metaclasses : ∀ ref, image.classes.Has ref → scope.classes.Has (image.classAt ref).instanceOf
  dictionaries : ∀ ref, ∀ method ∈ (image.classAt ref).methods.values, scope.methods.Has method
  classValues : ∀ ref, ∀ value ∈ (image.classAt ref).values, value.Exists scope
  holders : ∀ ref, image.methods.Has ref → scope.classes.Has (image.methodAt ref).holder
  elements : ∀ ref, ∀ value ∈ image.arrayAt ref, value.Exists scope
  owners : ∀ ref, image.heap.objects.Has ref → scope.classes.Has (image.objectAt ref).owner
  contents : ∀ ref, (image.objectAt ref).All (·.Exists scope)
  bodies : ∀ ref, ∀ node ∈ Code.outlineAll (image.blockAt ref).body, scope.Outlines node
  frames : ∀ ref, (image.frameAt ref).All (·.Exists scope)

/-- In a later scope everything goes on existing. -/
theorem Within.mono {scope later image : Image} (inside : Within scope image)
    (extended : scope.Extends later) : Within later image where
  core := fun ref member => Nat.lt_of_lt_of_le (inside.core ref member) extended.classes
  globals := fun value member => (inside.globals value member).mono extended
  superclasses := fun ref parent found =>
    Nat.lt_of_lt_of_le (inside.superclasses ref parent found) extended.classes
  metaclasses := fun ref old => Nat.lt_of_lt_of_le (inside.metaclasses ref old) extended.classes
  dictionaries := fun ref method member =>
    Nat.lt_of_lt_of_le (inside.dictionaries ref method member) extended.methods
  classValues := fun ref value member => (inside.classValues ref value member).mono extended
  holders := fun ref old => Nat.lt_of_lt_of_le (inside.holders ref old) extended.classes
  elements := fun ref value member => (inside.elements ref value member).mono extended
  owners := fun ref old => Nat.lt_of_lt_of_le (inside.owners ref old) extended.classes
  contents := fun ref => {
    references := fun index value found =>
      ((inside.contents ref).references index value found).mono extended
    overflow := fun index value found =>
      ((inside.contents ref).overflow index value found).mono extended }
  bodies := fun ref node member => (inside.bodies ref node member).mono extended
  frames := fun ref => {
    receiver := (inside.frames ref).receiver.mono extended
    arguments := fun value member => ((inside.frames ref).arguments value member).mono extended
    temporaries := fun value member =>
      ((inside.frames ref).temporaries value member).mono extended }

/-- Nothing dangles, and no two nodes share a site. -/
structure WellFormed (image : Image) : Prop where
  within : Within image image
  placed : ∀ node, image.Outlines node → node.Placed image
  callsApart : ∀ node other site, image.Outlines node → image.Outlines other →
    node.callSite? = some site → other.callSite? = some site → node = other
  fieldsApart : ∀ node other site, image.Outlines node → image.Outlines other →
    node.fieldSite? = some site → other.fieldSite? = some site → node = other

/-- Whether every node of some code belongs to a method of the image. -/
def Provides (image : Image) (body : List Code) : Prop :=
  ∀ node ∈ Code.outlineAll body, image.Outlines node

end Image

end MessageMachine
