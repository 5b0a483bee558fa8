import MessageMachine.Machine.Image

/-!
# Access to fields

Fields of instances are read and written through the current shape of their class, after bringing
the instance up to date; a value that does not fit gives the class a new shape first.  A site in
prepared code remembers the location it used last and takes it again while the instance has that
shape and the shape is still current.  Fields of class objects are plain variables.
-/

namespace MessageMachine

namespace Image

/-- Change a class. -/
def modifyClass (image : Image) (ref : ClassRef) (change : Class → Class) : Image :=
  { image with classes := image.classes.modify ref change }

/-- Replace the storage of an object. -/
def setObject (image : Image) (ref : ObjectRef) (store : Instance) : Image :=
  { image with heap := { image.heap with objects := image.heap.objects.set ref store } }

/-- Remember the location that a field site used. -/
def setFieldSite (image : Image) (site : FieldSiteRef) (location : Location) : Image :=
  { image with sites := { image.sites with fields := image.sites.fields.set site (some location) } }

/-- Make an instance of a class, with all fields nil. -/
def instantiate (image : Image) (ref : ClassRef) : ObjectRef × Image :=
  let store := Instance.ofShape ref (image.shapeAt (image.classAt ref).shape)
  (image.heap.objects.next,
    { image with heap := { image.heap with objects := image.heap.objects.push store } })

/-- Bring an instance up to date with the current shape of its class. -/
def revalidate (image : Image) (ref : ObjectRef) : Image :=
  let store := image.objectAt ref
  let current := (image.classAt store.owner).shape
  if store.shape = current then image
  else
    let migrated := store.migrate (image.shapeAt store.shape) (image.shapeAt current)
    let image := image.note fun image =>
      .instanceMigrated (image.className store.owner) (image.shapeAt current).version
    image.setObject ref migrated

/-- The location of a field in an instance as it is laid out now. -/
def locate? (image : Image) (store : Instance) (index : Nat) : Option Location :=
  (image.shapeAt store.shape).location? index

/-- Give a class a new shape, in which one field is stored differently. -/
def generalize (image : Image) (ref : ClassRef) (index : Nat) (storage : Storage) : Image :=
  let current := (image.classAt ref).shape
  let next := image.shapes.next
  let derived := (image.shapeAt current).derive next index storage
  let replaced := image.shapes.modify current fun shape => { shape with successor := some next }
  let image := { image with shapes := replaced.push derived }
  let image := image.modifyClass ref fun type => { type with shape := next }
  image.note fun image =>
    let type := image.classAt ref
    .fieldGeneralized type.name index (type.fields[index]?.getD "") storage derived.version

/-- Write a field of an instance that is up to date, where its location accepts the value. -/
def writeLocated? (image : Image) (ref : ObjectRef) (index : Nat) (value : Value) :
    Option (Location × Image) :=
  let store := image.objectAt ref
  match image.locate? store index with
  | none => none
  | some location =>
      match store.write? location value with
      | some written => some (location, image.setObject ref written)
      | none => none

/-- Write a field of an instance, generalizing its storage if it has to be.  The location that was
used is answered, or none if there is no such field. -/
def writeInstance (image : Image) (ref : ObjectRef) (index : Nat) (value : Value) :
    Option Location × Image :=
  let image := image.revalidate ref
  let store := image.objectAt ref
  match image.locate? store index with
  | none => (none, image)
  | some location =>
      match store.write? location value with
      | some written => (some location, image.setObject ref written)
      | none =>
          let storage := location.storage.generalize index value
          let image := (image.generalize store.owner index storage).revalidate ref
          match image.writeLocated? ref index value with
          | some (location, image) => (some location, image)
          | none => (none, image)

/-- Read a field of an object or a class object. -/
def readField (image : Image) (receiver : Value) (index : Nat) : Option Value × Image :=
  match receiver with
  | .object ref =>
      let image := image.revalidate ref
      let store := image.objectAt ref
      ((image.locate? store index).map store.read, image)
  | .classObject ref => ((image.classAt ref).values[index]?, image)
  | _ => (none, image)

/-- Write a field of an object or a class object, answering whether there is such a field. -/
def writeField (image : Image) (receiver : Value) (index : Nat) (value : Value) : Bool × Image :=
  match receiver with
  | .object ref =>
      let (location, image) := image.writeInstance ref index value
      (location.isSome, image)
  | .classObject ref =>
      if index < (image.classAt ref).values.size then
        (true, image.modifyClass ref fun type =>
          { type with values := type.values.setIfInBounds index value })
      else (false, image)
  | _ => (false, image)

/-- The location that a site remembers, if it holds for an instance as it is laid out now. -/
def remembered? (image : Image) (site : FieldSiteRef) (store : Instance) : Option Location :=
  match image.sites.fields.get site with
  | some location =>
      if location.shape = store.shape ∧ (image.shapeAt location.shape).isCurrent then
        some location
      else none
  | none => none

/-- Read a field by way of a site. -/
def readFieldAt (image : Image) (site : FieldSiteRef) (receiver : Value) (index : Nat) :
    Option Value × Image :=
  match receiver with
  | .object ref =>
      let store := image.objectAt ref
      match image.remembered? site store with
      | some location => (some (store.read location), image)
      | none =>
          let image := image.revalidate ref
          let store := image.objectAt ref
          match image.locate? store index with
          | some location => (some (store.read location), image.setFieldSite site location)
          | none => (none, image)
  | _ => image.readField receiver index

/-- Write a field by way of a site, answering whether there is such a field. -/
def writeFieldAt (image : Image) (site : FieldSiteRef) (receiver : Value) (index : Nat)
    (value : Value) : Bool × Image :=
  match receiver with
  | .object ref =>
      let store := image.objectAt ref
      match (image.remembered? site store).bind fun location => store.write? location value with
      | some written => (true, image.setObject ref written)
      | none =>
          match image.writeInstance ref index value with
          | (some location, image) => (true, image.setFieldSite site location)
          | (none, image) => (false, image)
  | _ => image.writeField receiver index value

end Image

end MessageMachine
