import MessageMachine.Memory.Value

/-!
# Shapes

A shape says how each field of the instances of one class is stored.  A field starts out
unwritten, is specialized by the first value stored into it, and is generalized to a reference when
a value of another representation shows up.  Generalizing never goes back and gives the class a new
version of its shape; the old version remembers its successor.
-/

namespace MessageMachine

/-- The number of fields stored inside an instance; later fields overflow. -/
def inlineFields : Nat :=
  5

/-- How a field is stored. -/
inductive Storage
  /-- Never written by any instance of the class: reads as nil. -/
  | unwritten
  /-- An unboxed 64-bit integer, inside the instance. -/
  | integer
  /-- An unboxed double, inside the instance. -/
  | double
  /-- Any value, inside the instance. -/
  | reference
  /-- Any value, in the overflow storage. -/
  | overflow
deriving DecidableEq, Repr

namespace Storage

/-- The name of a storage kind. -/
def name : Storage → String
  | .unwritten => "Unwritten"
  | .integer => "Integer"
  | .double => "Double"
  | .reference => "Reference"
  | .overflow => "Overflow"

/-- How a field nobody has written yet is stored. -/
def initial (index : Nat) : Storage :=
  if index < inlineFields then .unwritten else .overflow

/-- The storage a value asks for in a field that is unwritten. -/
def forValue (index : Nat) (value : Value) : Storage :=
  if inlineFields ≤ index then .overflow
  else
    match value with
    | .integer _ => .integer
    | .double _ => .double
    | _ => .reference

/-- Whether a value can be stored as it is. -/
def accepts : Storage → Value → Bool
  | .integer, .integer _ => true
  | .double, .double _ => true
  | .reference, _ => true
  | .overflow, _ => true
  | _, _ => false

/-- The storage that a field turns into so that it accepts a value. -/
def generalize (storage : Storage) (index : Nat) (value : Value) : Storage :=
  match storage with
  | .unwritten => forValue index value
  | .integer => .reference
  | .double => .reference
  | .reference => .reference
  | .overflow => .overflow

/-- The storage a value asks for accepts that value. -/
theorem accepts_forValue (index : Nat) (value : Value) :
    (forValue index value).accepts value = true := by
  unfold forValue
  split
  · rfl
  · cases value <;> rfl

/-- Generalizing a storage for a value makes it accept the value. -/
theorem accepts_generalize (storage : Storage) (index : Nat) (value : Value) :
    (storage.generalize index value).accepts value = true := by
  cases storage with
  | unwritten => exact accepts_forValue index value
  | integer => rfl
  | double => rfl
  | reference => rfl
  | overflow => rfl

end Storage

/-- Where a field is stored, as valid for one shape. -/
structure Location where
  storage : Storage
  index : Nat
  shape : ShapeRef
deriving DecidableEq, Repr

/-- The storage layout of the instances of a class, at one version. -/
structure Shape where
  /-- The reference of the shape itself. -/
  id : ShapeRef
  /-- The class whose instances are laid out. -/
  owner : ClassRef
  /-- Starts at zero and grows by one with each generalization. -/
  version : Nat
  /-- One location for each field. -/
  locations : Array Location
  /-- The shape that replaced this one. -/
  successor : Option ShapeRef
deriving Inhabited

namespace Shape

/-- The first shape of a class. -/
def initial (id : ShapeRef) (owner : ClassRef) (fields : Nat) : Shape where
  id
  owner
  version := 0
  locations := ((List.range fields).map fun index =>
    { storage := Storage.initial index, index, shape := id }).toArray
  successor := none

/-- Whether no other shape has replaced this one. -/
def isCurrent (shape : Shape) : Bool :=
  shape.successor.isNone

/-- The location of a field. -/
def location? (shape : Shape) (index : Nat) : Option Location :=
  shape.locations[index]?

/-- The next version, in which one field is stored differently.  The locations of all fields are
taken over and made out to the new shape. -/
def derive (shape : Shape) (id : ShapeRef) (index : Nat) (storage : Storage) : Shape where
  id
  owner := shape.owner
  version := shape.version + 1
  locations := (shape.locations.map fun location => { location with shape := id }).modify index
    fun location => { location with storage }
  successor := none

/-- How each field is stored. -/
def storages (shape : Shape) : Array Storage :=
  shape.locations.map Location.storage

theorem getElem?_storages (shape : Shape) (index : Nat) :
    shape.storages[index]? = (shape.location? index).map Location.storage :=
  Array.getElem?_map

theorem size_storages (shape : Shape) : shape.storages.size = shape.locations.size :=
  Array.size_map

theorem storages_initial (id : ShapeRef) (owner : ClassRef) (fields : Nat) :
    (initial id owner fields).storages = ((List.range fields).map Storage.initial).toArray := by
  simp only [storages, initial, List.map_toArray, List.map_map, Function.comp_def]

/-- The next version has the same fields, at locations of its own. -/
theorem location?_derive (shape : Shape) (id : ShapeRef) (index : Nat) (storage : Storage)
    (place : Nat) :
    (shape.derive id index storage).location? place = (shape.location? place).map fun location =>
      { location with
        storage := if index = place then storage else location.storage
        shape := id } := by
  simp only [location?, derive, Array.getElem?_modify, Array.getElem?_map]
  cases shape.locations[place]? with
  | none => split <;> rfl
  | some location => split <;> rfl

theorem storages_derive (shape : Shape) (id : ShapeRef) (index : Nat) (storage : Storage) :
    (shape.derive id index storage).storages = shape.storages.setIfInBounds index storage := by
  apply Array.ext_getElem?
  intro place
  rw [getElem?_storages, location?_derive, Array.getElem?_setIfInBounds, getElem?_storages,
    size_storages]
  by_cases same : index = place
  · subst same
    rw [if_pos rfl]
    by_cases inside : index < shape.locations.size
    · simp [location?, inside]
    · simp [location?, inside]
  · rw [if_neg same]
    simp [same, Function.comp_def]

end Shape

end MessageMachine
