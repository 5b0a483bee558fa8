import MessageMachine.Memory.Shape

/-!
# Instances

The storage of an object.  The first fields have room for an unboxed word and for a reference, of
which the shape says which one is in use; the other fields are in an overflow array.  Reading and
writing go through a location, and an instance that was laid out for an older shape is migrated
field by field.
-/

namespace MessageMachine

/-- The storage of one object. -/
structure Instance where
  /-- The class of the object. -/
  owner : ClassRef
  /-- The shape that the storage is laid out for. -/
  shape : ShapeRef
  /-- Unboxed words, for fields stored as integers or doubles, once written. -/
  scalars : Vector (Option UInt64) inlineFields
  /-- Values, for fields stored as references. -/
  references : Vector Value inlineFields
  /-- Values of the fields past the inline ones. -/
  overflow : Array Value

namespace Instance

/-- A fresh instance, with nothing written. -/
def ofShape (owner : ClassRef) (shape : Shape) : Instance where
  owner
  shape := shape.id
  scalars := Vector.replicate inlineFields none
  references := Vector.replicate inlineFields .nil
  overflow := Array.replicate (shape.locations.size - inlineFields) .nil

instance : Inhabited Instance :=
  ⟨ofShape default default⟩

/-- The unboxed word of a field, if one was written. -/
def scalar? (store : Instance) (index : Nat) : Option UInt64 :=
  store.scalars[index]?.join

/-- Read a field at a location of the instance's shape. -/
def read (store : Instance) (location : Location) : Value :=
  match location.storage with
  | .unwritten => .nil
  | .integer =>
      match store.scalar? location.index with
      | some word => .integer word.toInt64
      | none => .nil
  | .double =>
      match store.scalar? location.index with
      | some word => .double ⟨word⟩
      | none => .nil
  | .reference => store.references[location.index]?.getD .nil
  | .overflow => store.overflow[location.index - inlineFields]?.getD .nil

/-- Set the unboxed word of a field. -/
def setScalar (store : Instance) (index : Nat) (word : Option UInt64) : Instance :=
  { store with scalars := store.scalars.setIfInBounds index word }

/-- Set the inline reference of a field. -/
def setReference (store : Instance) (index : Nat) (value : Value) : Instance :=
  { store with references := store.references.setIfInBounds index value }

/-- Set the overflow cell of a field. -/
def setOverflow (store : Instance) (index : Nat) (value : Value) : Instance :=
  { store with overflow := store.overflow.setIfInBounds (index - inlineFields) value }

/-- Write a field at a location of the instance's shape, if the location accepts the value. -/
def write? (store : Instance) (location : Location) (value : Value) : Option Instance :=
  match location.storage, value with
  | .integer, .integer number => some (store.setScalar location.index (some number.toUInt64))
  | .double, .double number => some (store.setScalar location.index (some number.bits))
  | .reference, value => some (store.setReference location.index value)
  | .overflow, value => some (store.setOverflow location.index value)
  | _, _ => none

/-- A write succeeds exactly when the storage accepts the value. -/
theorem isSome_write? (store : Instance) (location : Location) (value : Value) :
    (store.write? location value).isSome = location.storage.accepts value := by
  obtain ⟨storage, index, shape⟩ := location
  cases storage <;> cases value <;> rfl

/-- Forget what is stored at a location. -/
def clear (store : Instance) (location : Location) : Instance :=
  match location.storage with
  | .unwritten => store
  | .integer => store.setScalar location.index none
  | .double => store.setScalar location.index none
  | .reference => store.setReference location.index .nil
  | .overflow => store.setOverflow location.index .nil

/-- Move one field from its old location to its new one.  Nil need not be moved, since every
storage reads as nil until it is written. -/
def relocate (store : Instance) (old new : Location) : Instance :=
  if old.storage = new.storage then store
  else
    let value := store.read old
    let cleared := store.clear old
    if value = .nil then cleared else (cleared.write? new value).getD cleared

/-- Lay the instance out for a newer shape of its class. -/
def migrate (store : Instance) (old new : Shape) : Instance :=
  let moved := (old.locations.toList.zip new.locations.toList).foldl
    (fun store pair => store.relocate pair.1 pair.2) store
  { moved with shape := new.id }

end Instance

end MessageMachine
