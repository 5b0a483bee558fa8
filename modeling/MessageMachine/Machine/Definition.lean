import MessageMachine.Code.Preparation
import MessageMachine.Machine.Fields

/-!
# Definitions

How classes and methods come into an image.  A class and its metaclass are registered as a pair,
the metaclass first.  Installing a method replaces any method that the class holds under the same
selector, and makes all targets that send sites remember outdated.
-/

namespace MessageMachine

namespace Image

/-- Register a class together with its first shape. -/
def registerClass (image : Image) (fields : Nat) (build : ClassRef → ShapeRef → Class) :
    ClassRef × Image :=
  let ref := image.classes.next
  let shape := image.shapes.next
  (ref, { image with
    shapes := image.shapes.push (.initial shape ref fields)
    classes := image.classes.push (build ref shape) })

/-- Register a class and its metaclass, answering the class.  Inherited fields come first on both
sides.  While the class of metaclasses does not exist yet, a metaclass is its own class. -/
def registerPair (image : Image) (name : String) (superclass metaclassClass : Option ClassRef)
    (fields classFields : List String) : ClassRef × Image :=
  let superMetaclass := superclass.map fun ref => (image.classAt ref).instanceOf
  let inherited := fun (ref : Option ClassRef) =>
    (ref.map fun ref => (image.classAt ref).fields).getD []
  let allClassFields := inherited superMetaclass ++ classFields
  let allFields := inherited superclass ++ fields
  let (metaclass, image) := image.registerClass allClassFields.length fun ref shape => {
    name := name ++ " class"
    instanceOf := metaclassClass.getD ref
    superclass := superMetaclass
    fields := allClassFields
    values := #[]
    methods := .empty
    shape
    isMetaclass := true }
  image.registerClass allFields.length fun _ shape => {
    name
    instanceOf := metaclass
    superclass
    fields := allFields
    values := Array.replicate allClassFields.length .nil
    methods := .empty
    shape
    isMetaclass := false }

/-- Give a class a method. -/
def addMethod (image : Image) (holder : ClassRef) (selector : Selector) (behavior : Behavior) :
    Image :=
  let image := image.meet selector
  let ref := image.methods.next
  let image := { image with methods := image.methods.push { holder, selector, behavior } }
  let image := image.modifyClass holder fun type =>
    { type with methods := type.methods.insert selector ref }
  let image := { image with sites := { image.sites with version := image.sites.version + 1 } }
  if image.journal.listening && 0 < image.sites.filled then
    image.note fun image =>
      .methodInstalled (image.className holder) selector image.sites.filled
  else image

/-- Take a method out of the dictionary of a class, answering whether there was one.  Send sites
keep what they remember. -/
def removeMethod (image : Image) (holder : ClassRef) (selector : Selector) : Bool × Image :=
  ((image.classAt holder).methods.contains selector,
    image.modifyClass holder fun type => { type with methods := type.methods.erase selector })

/-- Bind a global name, answering the value it was bound to. -/
def setGlobal (image : Image) (name : String) (value : Value) : Option Value × Image :=
  (image.globals.find? name,
    { image.meet name with globals := image.globals.insert name value })

/-- What the preparation of a method for a class needs to know. -/
def surroundings (image : Image) (holder : ClassRef) (selector : Selector) : Surroundings :=
  let type := image.classAt holder
  { className := type.name
    fields := type.fields.length
    superclass := type.superclass
    selector
    specializeControl := image.settings.specializeControl }

end Image

/-- Definitions change the image and may turn out to be flawed. -/
abbrev Defining := EStateM Flaw Image

namespace Image

/-- The draft from which the preparation of a method starts. -/
def draft (image : Image) : Draft :=
  { image.sites with interner := image.interner, callSites := #[] }

/-- Take over the sites and the names of a draft. -/
def adopt (image : Image) (draft : Draft) : Image :=
  { image with sites := draft.toSites, interner := draft.interner }

/-- Prepare a method for a class, without installing it. -/
def prepareMethod (holder : ClassRef) (definition : Source.MethodDefinition) :
    Defining Routine := fun image =>
  match definition.prepare (image.surroundings holder definition.selector) image.draft with
  | .ok routine draft => .ok routine (image.adopt draft)
  | .error flaw draft => .error flaw (image.adopt draft)

/-- Install a method in a class.  A method declared as primitive is bound to the operation of that
class and selector, if there is one. -/
def installMethod (holder : ClassRef) (definition : Source.MethodDefinition) :
    Defining Unit := do
  match definition.body with
  | .primitive =>
      let type := (← get).classAt holder
      match Primitive.find? type.baseName type.isMetaclass definition.selector with
      | some primitive =>
          modify fun image => image.addMethod holder definition.selector (.primitive primitive)
      | none =>
          let title := type.name ++ ">>#" ++ definition.selector
          modify fun image => image.note fun _ => .operationMissing title
          modify fun image => image.addMethod holder definition.selector (.missing title)
  | .expressions _ _ =>
      let routine ← prepareMethod holder definition
      modify fun image => image.addMethod holder definition.selector (.defined routine)

/-- Install methods one after the other, up to the first one with a flaw. -/
def installMethods (holder : ClassRef) : List Source.MethodDefinition → Defining Unit
  | [] => return ()
  | definition :: rest => do
      installMethod holder definition
      installMethods holder rest

/-- The first of some declared fields that is inherited or was declared before. -/
def repeatedField? (known : List String) : List String → Option String
  | [] => none
  | field :: rest =>
      if field ∈ known then some field else repeatedField? (field :: known) rest

/-- Refuse fields that are declared twice. -/
def checkFields (className : String) (inherited declared : List String) : Defining Unit :=
  match repeatedField? inherited declared with
  | some field => throw (.repeatedField className field)
  | none => return ()

/-- The superclass that a definition names. -/
def findSuperclass (definition : Source.ClassDefinition) : Defining ClassRef := do
  let image ← get
  match definition.superclass with
  | none => return image.core.object
  | some name =>
      match image.global? name with
      | some (.classObject ref) => return ref
      | some _ => throw (.superclassNotAClass definition.name name)
      | none => throw (.superclassUndefined definition.name name)

/-- Define a class and bind its name.  The methods of the class side are installed first. -/
def defineClass (definition : Source.ClassDefinition) : Defining ClassRef := do
  let superclass ← findSuperclass definition
  let image ← get
  let parent := image.classAt superclass
  checkFields definition.name parent.fields definition.fields
  checkFields definition.name (image.classAt parent.instanceOf).fields definition.classFields
  let ref ← modifyGet fun image =>
    image.registerPair definition.name (some superclass) (some image.core.metaclass)
      definition.fields definition.classFields
  let metaclass := ((← get).classAt ref).instanceOf
  installMethods metaclass definition.classMethods
  installMethods ref definition.methods
  let previous ← modifyGet fun image => image.setGlobal definition.name (.classObject ref)
  if previous.isSome then
    modify fun image => image.note fun _ => .classRedefined definition.name
  modify fun image => image.note fun image =>
    let type := image.classAt ref
    .classDefined definition.name type.fields.length type.methods.size
  return ref

end Image

end MessageMachine
