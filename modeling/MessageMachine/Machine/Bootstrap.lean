import MessageMachine.Machine.Definition

/-!
# Bootstrap

The image that every run starts from: the core classes with their primitive operations, bound to
their names, and the names of the three constants.
-/

namespace MessageMachine

namespace CoreClasses

/-- The core classes in the order in which they are registered. -/
def inOrder (core : CoreClasses) : List ClassRef :=
  [core.object, core.classClass, core.metaclass, core.nil, core.boolean, core.trueClass,
    core.falseClass, core.integer, core.double, core.array, core.string, core.symbol, core.method,
    core.primitive, core.block, core.block1, core.block2, core.block3]

end CoreClasses

namespace Image

/-- Register the three classes that refer to each other. -/
def registerRoots : StateM Image (ClassRef × ClassRef × ClassRef) := do
  let object ← modifyGet fun image => image.registerPair "Object" none none [] []
  let classClass ← modifyGet fun image => image.registerPair "Class" (some object) none [] []
  let metaclass ← modifyGet fun image =>
    image.registerPair "Metaclass" (some classClass) none [] []
  return (object, classClass, metaclass)

/-- Tie the knot between the root classes, once all core classes are registered: the metaclasses of
the three roots become instances of the class of metaclasses, and class objects inherit from the
class of classes. -/
def tieRoots (image : Image) (core : CoreClasses) : Image :=
  let metaclassOf := fun (ref : ClassRef) => (image.classAt ref).instanceOf
  let image := [core.object, core.classClass, core.metaclass].foldl
    (fun image ref => image.modifyClass (metaclassOf ref) fun type =>
      { type with instanceOf := core.metaclass }) image
  image.modifyClass (metaclassOf core.object) fun type =>
    { type with superclass := some core.classClass }

/-- Register the core classes. -/
def registerCore : StateM Image CoreClasses := do
  let (object, classClass, metaclass) ← registerRoots
  let pair := fun (name : String) (superclass : ClassRef) =>
    modifyGet fun (image : Image) =>
      image.registerPair name (some superclass) (some metaclass) [] []
  let nil ← pair "Nil" object
  let boolean ← pair "Boolean" object
  let trueClass ← pair "True" boolean
  let falseClass ← pair "False" boolean
  let integer ← pair "Integer" object
  let double ← pair "Double" object
  let array ← pair "Array" object
  let string ← pair "String" object
  let symbol ← pair "Symbol" string
  let method ← pair "Method" object
  let primitive ← pair "Primitive" object
  let block ← pair "Block" object
  let block1 ← pair "Block1" block
  let block2 ← pair "Block2" block
  let block3 ← pair "Block3" block
  return {
    object, classClass, metaclass, nil, boolean, trueClass, falseClass, integer, double, array,
    string, symbol, method, primitive, block, block1, block2, block3 }

/-- Give a core class its primitive operations, on both sides. -/
def installPrimitives (image : Image) (ref : ClassRef) : Image :=
  let type := image.classAt ref
  let install := fun (holder : ClassRef) (image : Image) (primitive : Primitive) =>
    image.addMethod holder primitive.selector (.primitive primitive)
  let image := (Primitive.ofInstances type.name).foldl (install ref) image
  (Primitive.ofClass type.name).foldl (install type.instanceOf) image

/-- Bind the name of a class. -/
def nameClass (image : Image) (ref : ClassRef) : Image :=
  (image.setGlobal (image.className ref) (.classObject ref)).2

/-- The image that every run starts from. -/
def initial (platform : Platform) (settings : Settings) (listening : Bool) : Image :=
  let (core, image) := registerCore.run (Image.empty platform settings listening)
  let image := { image.tieRoots core with core }
  let image := core.inOrder.foldl (fun image ref => (image.installPrimitives ref).nameClass ref)
    image
  let image := (image.setGlobal "nil" .nil).2
  let image := (image.setGlobal "true" (.boolean true)).2
  let image := (image.setGlobal "false" (.boolean false)).2
  image.note fun image => .initialized image.classes.size image.settings

end Image

end MessageMachine
