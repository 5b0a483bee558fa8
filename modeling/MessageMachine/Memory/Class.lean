import MessageMachine.Memory.Dictionary
import MessageMachine.Memory.Shape

/-!
# Classes

Classes and metaclasses are the same kind of thing: a metaclass is the class of one class object,
and its fields are the class-side variables of that object.
-/

namespace MessageMachine

/-- A class or a metaclass. -/
structure Class where
  name : String
  /-- The class that this class object is an instance of. -/
  instanceOf : ClassRef
  superclass : Option ClassRef
  /-- The names of the fields of the instances, inherited ones first. -/
  fields : List String
  /-- The values of the class object's own fields. -/
  values : Array Value
  /-- The methods that this class holds. -/
  methods : Dictionary MethodRef
  /-- The current shape of the instances. -/
  shape : ShapeRef
  /-- Whether this is a metaclass. -/
  isMetaclass : Bool
deriving Inhabited

namespace Class

/-- The name without the mark of a metaclass. -/
def baseName (type : Class) : String :=
  if type.isMetaclass && type.name.endsWith " class" then (type.name.dropEnd 6).toString
  else type.name

end Class

end MessageMachine
