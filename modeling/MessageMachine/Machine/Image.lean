import MessageMachine.Cache.Sites
import MessageMachine.Code.Method
import MessageMachine.Language.Interner
import MessageMachine.Machine.Failure
import MessageMachine.Machine.Journal
import MessageMachine.Machine.Platform
import MessageMachine.Memory.Class
import MessageMachine.Memory.Frame
import MessageMachine.Memory.Instance
import MessageMachine.Text.Blank

/-!
# The image

The whole state of a machine: the classes with their methods and shapes, the things that programs
make, the state of every site, and the bindings of global names.  This module holds the questions
that can be asked of it without changing it: the class of a value, its category, its text, and the
method that a class answers a selector with.

Some limits of a real machine are left out.  Things, names, methods and sites are numbered without
bound, of all counters only the version of the method dictionaries wraps around, and memory never
runs out.  A recursion too deep for any stack exhausts every budget, and has no outcome.  Of source
trees only what some function reads is kept: parameters and temporaries have numbers and no names,
and only returns have spans.
-/

namespace MessageMachine

/-- The classes that the machine itself refers to, whatever the global names are bound to. -/
structure CoreClasses where
  object : ClassRef
  classClass : ClassRef
  metaclass : ClassRef
  nil : ClassRef
  boolean : ClassRef
  trueClass : ClassRef
  falseClass : ClassRef
  integer : ClassRef
  double : ClassRef
  array : ClassRef
  string : ClassRef
  symbol : ClassRef
  method : ClassRef
  primitive : ClassRef
  block : ClassRef
  block1 : ClassRef
  block2 : ClassRef
  block3 : ClassRef
deriving Inhabited

/-- The class of blocks with a given number of parameters. -/
def CoreClasses.blockOf (core : CoreClasses) : Nat → ClassRef
  | 0 => core.block1
  | 1 => core.block2
  | _ => core.block3

/-- The things that programs make. -/
structure Heap where
  arrays : Arena .arrays (Array Value)
  objects : Arena .objects Instance
  blocks : Arena .blocks Closure
  frames : Arena .frames Frame

/-- The heap before anything is made. -/
def Heap.empty : Heap where
  arrays := .empty
  objects := .empty
  blocks := .empty
  frames := .empty

/-- The whole state of a machine. -/
structure Image where
  platform : Platform
  settings : Settings
  core : CoreClasses
  globals : Dictionary Value
  classes : Arena .classes Class
  shapes : Arena .shapes Shape
  methods : Arena .methods Method
  heap : Heap
  sites : Sites
  /-- The names met so far. -/
  interner : Interner
  /-- The bounds below which random numbers were drawn, the latest first. -/
  drawn : List Int64
  journal : Journal

namespace Image

/-- The image without classes. -/
def empty (platform : Platform) (settings : Settings) (listening : Bool) : Image where
  platform
  settings
  core := default
  globals := .empty
  classes := .empty
  shapes := .empty
  methods := .empty
  heap := .empty
  sites := .empty
  interner := .empty
  drawn := []
  journal := { listening, events := #[] }

/-- Note an event.  Nothing is computed for it unless somebody listens. -/
@[inline] def note (image : Image) (describe : Image → Event) : Image :=
  if image.journal.listening then
    let event := describe image
    { image with
      journal := { image.journal with events := image.journal.events.push event } }
  else image

/-- Meet a name. -/
def meet (image : Image) (name : String) : Image :=
  { image with interner := (image.interner.intern name).2 }

/-- Meet names, one after the other. -/
def meetAll (image : Image) (names : List String) : Image :=
  { image with interner := image.interner.internAll names }

/-- The class of a reference. -/
def classAt (image : Image) (ref : ClassRef) : Class :=
  image.classes.get ref

/-- The shape of a reference. -/
def shapeAt (image : Image) (ref : ShapeRef) : Shape :=
  image.shapes.get ref

/-- The method of a reference. -/
def methodAt (image : Image) (ref : MethodRef) : Method :=
  image.methods.get ref

/-- The elements of an array. -/
def arrayAt (image : Image) (ref : ArrayRef) : Array Value :=
  image.heap.arrays.get ref

/-- The storage of an object. -/
def objectAt (image : Image) (ref : ObjectRef) : Instance :=
  image.heap.objects.get ref

/-- The block of a reference. -/
def blockAt (image : Image) (ref : BlockRef) : Closure :=
  image.heap.blocks.get ref

/-- The frame of a reference. -/
def frameAt (image : Image) (ref : FrameRef) : Frame :=
  image.heap.frames.get ref

/-- The name of a class. -/
def className (image : Image) (ref : ClassRef) : String :=
  (image.classAt ref).name

/-- The name of a method: the class that holds it and its selector. -/
def methodName (image : Image) (ref : MethodRef) : String :=
  let method := image.methodAt ref
  image.className method.holder ++ ">>#" ++ method.selector

/-- The name of what runs in a frame. -/
def frameName (image : Image) (ref : FrameRef) : String :=
  match (image.frameAt ref).method with
  | some method => image.methodName method
  | none => "<block>"

/-- The class of a value. -/
def classOf (image : Image) : Value → ClassRef
  | .nil => image.core.nil
  | .boolean true => image.core.trueClass
  | .boolean false => image.core.falseClass
  | .integer _ => image.core.integer
  | .big _ => image.core.integer
  | .double _ => image.core.double
  | .symbol _ => image.core.symbol
  | .string _ => image.core.string
  | .array _ => image.core.array
  | .block ref => image.core.blockOf (image.blockAt ref).parameters
  | .object ref => (image.objectAt ref).owner
  | .classObject ref => (image.classAt ref).instanceOf
  | .method ref =>
      if (image.methodAt ref).isPrimitive then image.core.primitive
      else image.core.method

/-- The category of a receiver.  Receivers of one category have one class. -/
def guardOf (image : Image) : Value → Guard
  | .nil => .nil
  | .boolean true => .truth
  | .boolean false => .falsity
  | .integer _ => .integer
  | .big _ => .integer
  | .double _ => .double
  | .symbol _ => .symbol
  | .string _ => .string
  | .array _ => .array
  | .block ref => .block (image.blockAt ref).parameters
  | .object ref => .object (image.objectAt ref).owner
  | .classObject ref => .classObject ref
  | .method ref => if (image.methodAt ref).isPrimitive then .primitive else .method

/-- A class and its superclasses, nearest first, as far as a number of steps reaches. -/
def lineageWithin (image : Image) : Nat → ClassRef → List ClassRef
  | 0, _ => []
  | steps + 1, ref =>
      match (image.classAt ref).superclass with
      | some superclass => ref :: image.lineageWithin steps superclass
      | none => [ref]

/-- A class and its superclasses, nearest first.  A lineage has no repetitions, so that the number
of classes bounds its length. -/
def lineage (image : Image) (ref : ClassRef) : List ClassRef :=
  image.lineageWithin image.classes.size ref

/-- The method that a class answers a selector with: that of the nearest class of its lineage that
holds one. -/
def lookup (image : Image) (ref : ClassRef) (selector : Selector) : Option MethodRef :=
  (image.lineage ref).findSome? fun ancestor =>
    (image.classAt ancestor).methods.find? selector

/-- The method that a value answers a selector with. -/
def lookupFor (image : Image) (value : Value) (selector : Selector) : Option MethodRef :=
  image.lookup (image.classOf value) selector

/-- The value bound to a global name. -/
def global? (image : Image) (name : String) : Option Value :=
  image.globals.find? name

/-- The text of a symbol.  It is quoted if it has blanks or quotes in it. -/
def symbolText (name : String) : String :=
  let characters := name.toList
  if characters.any fun character =>
      CharacterClass.blank.contains character || character == '\'' then
    "#'" ++ String.ofList (characters.flatMap fun character =>
      if character = '\'' then ['\\', '\''] else [character]) ++ "'"
  else "#" ++ name

/-- The text of a value, if opening up arrays to some depth is enough for it. -/
def textWithin (image : Image) : Nat → Value → Option String
  | _, .nil => some "nil"
  | _, .boolean truth => some (if truth then "true" else "false")
  | _, .integer number => some (Integer.text number.toInt)
  | _, .big number => some (Integer.text number)
  | _, .double number => some (Double.text number)
  | _, .symbol name => some (symbolText name)
  | _, .string text => some text
  | 0, .array _ => none
  | depth + 1, .array ref =>
      ((image.arrayAt ref).toList.mapM (image.textWithin depth)).map fun texts =>
        "#(" ++ " ".intercalate texts ++ ")"
  | _, .block ref => some ("instance of Block" ++ toString ((image.blockAt ref).parameters + 1))
  | _, .object ref => some ("instance of " ++ image.className (image.objectAt ref).owner)
  | _, .classObject ref => some (image.className ref)
  | _, .method ref => some (image.methodName ref)

/-- The text of a value.  An array that is nested in itself has none.  All others are nested no
deeper than there are arrays. -/
def text? (image : Image) (value : Value) : Option String :=
  image.textWithin (image.heap.arrays.size + 1) value

/-- The enclosing frame a number of levels up. -/
def enclosing? (image : Image) : FrameRef → Nat → Option FrameRef
  | ref, 0 => some ref
  | ref, levels + 1 =>
      match (image.frameAt ref).parent with
      | some parent => image.enclosing? parent levels
      | none => none

/-- The outermost enclosing frame, as far as a number of steps reaches. -/
def outermostWithin (image : Image) : Nat → FrameRef → FrameRef
  | 0, ref => ref
  | steps + 1, ref =>
      match (image.frameAt ref).parent with
      | some parent => image.outermostWithin steps parent
      | none => ref

/-- The outermost enclosing frame: for the frame of a block, that of the method it stands in.
Enclosing frames are older, so that the number of frames bounds the way. -/
def outermost (image : Image) (ref : FrameRef) : FrameRef :=
  image.outermostWithin image.heap.frames.size ref

/-- The value of a slot, seen from a frame. -/
def slot? (image : Image) (ref : FrameRef) (slot : Slot) : Option Value :=
  match image.enclosing? ref slot.depth with
  | some home => (image.frameAt home).slot? slot.kind slot.index
  | none => none

end Image

end MessageMachine
