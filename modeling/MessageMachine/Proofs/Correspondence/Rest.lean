import MessageMachine.Proofs.WellFormedness

/-!
# What access to fields pays no attention to

Two images that agree on classes, shapes, objects and what field sites remember read and write their
fields alike, whatever the rest of them is.  The rest is a record of its own here, so that this is
said by equations: access to a field commutes with putting another rest into an image, up to the
journal, where the migrations and generalizations are noted.
-/

namespace MessageMachine

/-- The parts of an image that access to fields has nothing to do with. -/
structure Rest where
  settings : Settings
  methods : Arena .methods Method
  blocks : Arena .blocks Closure
  frames : Arena .frames Frame
  calls : Arena .callSites DispatchCache
  controls : Arena .controlSites ControlState
  journal : Journal

namespace Image

/-- The rest of an image. -/
def rest (image : Image) : Rest where
  settings := image.settings
  methods := image.methods
  blocks := image.heap.blocks
  frames := image.heap.frames
  calls := image.sites.calls
  controls := image.sites.controls
  journal := image.journal

/-- An image with another rest. -/
def withRest (image : Image) (rest : Rest) : Image :=
  { image with
    settings := rest.settings
    methods := rest.methods
    heap := { image.heap with blocks := rest.blocks, frames := rest.frames }
    sites := { image.sites with calls := rest.calls, controls := rest.controls }
    journal := rest.journal }

/-- Whether two images are the same but for their rest, and their rests the same but for the
journal. -/
def Alike (rest : Rest) (image other : Image) : Prop :=
  ∃ journal, other = image.withRest { rest with journal }

variable {image : Image} {rest : Rest}

@[simp] theorem objectAt_withRest (image : Image) (rest : Rest) (ref : ObjectRef) :
    (image.withRest rest).objectAt ref = image.objectAt ref :=
  rfl

@[simp] theorem classAt_withRest (image : Image) (rest : Rest) (ref : ClassRef) :
    (image.withRest rest).classAt ref = image.classAt ref :=
  rfl

@[simp] theorem locate?_withRest (image : Image) (rest : Rest) (store : Instance) (index : Nat) :
    (image.withRest rest).locate? store index = image.locate? store index :=
  rfl

@[simp] theorem remembered?_withRest (image : Image) (rest : Rest) (site : FieldSiteRef)
    (store : Instance) :
    (image.withRest rest).remembered? site store = image.remembered? site store :=
  rfl

theorem revalidate_withRest (image : Image) (rest : Rest) (ref : ObjectRef) :
    Alike rest (image.revalidate ref) ((image.withRest rest).revalidate ref) := by
  rcases image.revalidate_cases ref with ⟨current, result⟩ | ⟨stale, journal, result⟩ <;>
    rcases (image.withRest rest).revalidate_cases ref with
      ⟨currentToo, resultToo⟩ | ⟨staleToo, journalToo, resultToo⟩
  · rw [result, resultToo]
    exact ⟨rest.journal, rfl⟩
  · exact absurd current staleToo
  · exact absurd currentToo stale
  · rw [result, resultToo]
    exact ⟨journalToo, rfl⟩

theorem generalize_withRest (image : Image) (rest : Rest) (ref : ClassRef) (index : Nat)
    (storage : Storage) :
    Alike rest (image.generalize ref index storage)
      ((image.withRest rest).generalize ref index storage) := by
  obtain ⟨journal, result⟩ := image.generalize_eq ref index storage
  obtain ⟨journalToo, resultToo⟩ := (image.withRest rest).generalize_eq ref index storage
  rw [result, resultToo]
  exact ⟨journalToo, rfl⟩

/-- Whether two accesses answer the same and leave images that are alike. -/
def AlikeResults {Answer : Type} (rest : Rest) (result other : Answer × Image) : Prop :=
  other.1 = result.1 ∧ Alike rest result.2 other.2

theorem writeLocated?_withRest (image : Image) (rest : Rest) (ref : ObjectRef) (index : Nat)
    (value : Value) :
    (image.withRest rest).writeLocated? ref index value =
      (image.writeLocated? ref index value).map fun result =>
        (result.1, result.2.withRest rest) := by
  unfold writeLocated?
  simp only [locate?_withRest, objectAt_withRest]
  cases image.locate? (image.objectAt ref) index with
  | none => rfl
  | some location =>
      dsimp only
      cases (image.objectAt ref).write? location value <;> rfl

theorem writeInstance_withRest (image : Image) (rest : Rest) (ref : ObjectRef) (index : Nat)
    (value : Value) :
    AlikeResults rest (image.writeInstance ref index value)
      ((image.withRest rest).writeInstance ref index value) := by
  obtain ⟨journal, same⟩ := image.revalidate_withRest rest ref
  unfold writeInstance
  rw [same]
  dsimp only
  generalize image.revalidate ref = now
  simp only [locate?_withRest, objectAt_withRest]
  cases now.locate? (now.objectAt ref) index with
  | none => exact ⟨rfl, journal, rfl⟩
  | some location =>
      dsimp only
      cases (now.objectAt ref).write? location value with
      | some written => exact ⟨rfl, journal, rfl⟩
      | none =>
          dsimp only
          obtain ⟨journal, widened⟩ := now.generalize_withRest { rest with journal }
            (now.objectAt ref).owner index (location.storage.generalize index value)
          rw [widened]
          obtain ⟨journal, updated⟩ := revalidate_withRest (now.generalize (now.objectAt ref).owner
            index (location.storage.generalize index value)) { rest with journal } ref
          rw [updated, writeLocated?_withRest]
          cases ((now.generalize (now.objectAt ref).owner index
              (location.storage.generalize index value)).revalidate ref).writeLocated? ref index
                value with
          | none => exact ⟨rfl, journal, rfl⟩
          | some result => exact ⟨rfl, journal, rfl⟩

theorem readField_withRest (image : Image) (rest : Rest) (receiver : Value) (index : Nat) :
    AlikeResults rest (image.readField receiver index)
      ((image.withRest rest).readField receiver index) := by
  cases receiver with
  | object ref =>
      obtain ⟨journal, same⟩ := image.revalidate_withRest rest ref
      simp only [readField]
      rw [same]
      exact ⟨rfl, journal, rfl⟩
  | _ => exact ⟨rfl, rest.journal, rfl⟩

theorem writeField_withRest (image : Image) (rest : Rest) (receiver : Value) (index : Nat)
    (value : Value) :
    AlikeResults rest (image.writeField receiver index value)
      ((image.withRest rest).writeField receiver index value) := by
  cases receiver with
  | object ref =>
      obtain ⟨answer, alike⟩ := image.writeInstance_withRest rest ref index value
      simp only [writeField]
      exact ⟨congrArg Option.isSome answer, alike⟩
  | classObject ref =>
      unfold writeField
      dsimp only
      rw [classAt_withRest]
      by_cases inside : index < (image.classAt ref).values.size
      · rw [if_pos inside, if_pos inside]
        exact ⟨rfl, rest.journal, rfl⟩
      · rw [if_neg inside, if_neg inside]
        exact ⟨rfl, rest.journal, rfl⟩
  | _ => exact ⟨rfl, rest.journal, rfl⟩

theorem readFieldAt_withRest (image : Image) (rest : Rest) (site : FieldSiteRef)
    (receiver : Value) (index : Nat) :
    AlikeResults rest (image.readFieldAt site receiver index)
      ((image.withRest rest).readFieldAt site receiver index) := by
  cases receiver with
  | object ref =>
      obtain ⟨journal, same⟩ := image.revalidate_withRest rest ref
      simp only [readFieldAt, remembered?_withRest, objectAt_withRest]
      cases image.remembered? site (image.objectAt ref) with
      | some location => exact ⟨rfl, rest.journal, rfl⟩
      | none =>
          dsimp only
          rw [same]
          generalize image.revalidate ref = now
          simp only [locate?_withRest, objectAt_withRest]
          cases now.locate? (now.objectAt ref) index with
          | none => exact ⟨rfl, journal, rfl⟩
          | some location => exact ⟨rfl, journal, rfl⟩
  | _ => exact image.readField_withRest rest _ index

theorem writeFieldAt_withRest (image : Image) (rest : Rest) (site : FieldSiteRef)
    (receiver : Value) (index : Nat) (value : Value) :
    AlikeResults rest (image.writeFieldAt site receiver index value)
      ((image.withRest rest).writeFieldAt site receiver index value) := by
  cases receiver with
  | object ref =>
      simp only [writeFieldAt, remembered?_withRest, objectAt_withRest]
      cases (image.remembered? site (image.objectAt ref)).bind fun location =>
          (image.objectAt ref).write? location value with
      | some written => exact ⟨rfl, rest.journal, rfl⟩
      | none =>
          dsimp only
          obtain ⟨answer, journal, same⟩ := image.writeInstance_withRest rest ref index value
          generalize image.writeInstance ref index value = result at answer same
          generalize (image.withRest rest).writeInstance ref index value = other at answer same
          obtain ⟨location, now⟩ := result
          obtain ⟨locationToo, nowToo⟩ := other
          cases answer
          cases same
          cases location with
          | none => exact ⟨rfl, journal, rfl⟩
          | some location => exact ⟨rfl, journal, rfl⟩
  | _ => exact image.writeField_withRest rest _ index value

end Image

end MessageMachine
