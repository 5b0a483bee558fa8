import MessageMachine.Memory.Instance

/-!
# The layout of instances

An instance has three places for a field, of which the storage of the field says which one is in
use.  The other two have to be empty, since a migration does not look at them: a field that was
never written is not moved at all and must read as nil wherever it is looked for afterwards.  Under
this condition moving a field keeps its value, writing a field makes it read as the value written,
and both leave the other fields alone.
-/

namespace MessageMachine

namespace Storage

/-- Whether a field stored in one way may come to be stored in another way. -/
def Widens : Storage → Storage → Prop
  | .unwritten, new => new ≠ .overflow
  | .integer, new => new = .integer ∨ new = .reference
  | .double, new => new = .double ∨ new = .reference
  | .reference, new => new = .reference
  | .overflow, new => new = .overflow

theorem Widens.refl (storage : Storage) : storage.Widens storage := by
  cases storage <;> simp [Widens]

theorem Widens.trans {first second third : Storage} (earlier : first.Widens second)
    (later : second.Widens third) : first.Widens third := by
  cases first <;> cases second <;> cases third <;> simp_all [Widens]

/-- A storage fits a position if exactly the later fields overflow. -/
def Suits (storage : Storage) (index : Nat) : Prop :=
  storage = .overflow ↔ inlineFields ≤ index

theorem suits_initial (index : Nat) : (initial index).Suits index := by
  unfold initial Suits
  by_cases inside : index < inlineFields
  · simp [inside]
  · simp [inside, Nat.le_of_not_lt inside]

/-- What a field turns into for a value is wider, and overflows just as before. -/
theorem widens_generalize {storage : Storage} {index : Nat} (suits : storage.Suits index)
    (value : Value) :
    storage.Widens (storage.generalize index value) ∧
      (storage.generalize index value).Suits index := by
  cases storage with
  | unwritten =>
      have inside : ¬ inlineFields ≤ index := fun outside => by cases suits.mpr outside
      unfold generalize forValue Suits
      rw [if_neg inside]
      cases value <;> simp [Widens, inside]
  | integer => exact ⟨Or.inr rfl, by simpa [Suits, generalize] using suits⟩
  | double => exact ⟨Or.inr rfl, by simpa [Suits, generalize] using suits⟩
  | reference => exact ⟨rfl, suits⟩
  | overflow => exact ⟨rfl, suits⟩

end Storage

namespace Shape

/-- Each location of a shape is the one of the field at its place, and it is made out to the shape,
whose reference is the given one. -/
structure Stamped (shape : Shape) (ref : ShapeRef) : Prop where
  id : shape.id = ref
  location : ∀ (index : Nat) location, shape.location? index = some location →
    location.index = index ∧ location.shape = ref

theorem Stamped.location?_eq {shape : Shape} {ref : ShapeRef} (stamped : shape.Stamped ref)
    (index : Nat) :
    shape.location? index = shape.storages[index]?.map fun storage =>
      { storage, index, shape := ref } := by
  rw [getElem?_storages]
  cases found : shape.location? index with
  | none => rfl
  | some location =>
      obtain ⟨here, same⟩ := stamped.location index location found
      subst here same
      rfl

theorem stamped_initial (id : ShapeRef) (owner : ClassRef) (fields : Nat) :
    (initial id owner fields).Stamped id where
  id := rfl
  location := by
    intro index location found
    simp only [location?, initial, List.getElem?_toArray, List.getElem?_map] at found
    obtain ⟨place, there, rfl⟩ := Option.map_eq_some_iff.mp found
    obtain ⟨_, rfl⟩ := List.getElem?_eq_some_iff.mp there
    simp

/-- What a shape takes over from the one before it is made out anew. -/
theorem Stamped.derive {shape : Shape} {ref : ShapeRef} (stamped : shape.Stamped ref)
    (id : ShapeRef) (index : Nat) (storage : Storage) :
    (shape.derive id index storage).Stamped id where
  id := rfl
  location := by
    intro place location found
    rw [location?_derive] at found
    obtain ⟨older, there, rfl⟩ := Option.map_eq_some_iff.mp found
    exact ⟨(stamped.location place older there).1, rfl⟩

end Shape

namespace Instance

/-- Whether an instance is laid out for a field being stored in a given way: the place in use
exists, and the places not in use are empty. -/
structure Fits (store : Instance) (index : Nat) (storage : Storage) : Prop where
  suits : storage.Suits index
  spill : storage = .overflow → index - inlineFields < store.overflow.size
  scalar : storage ≠ .integer → storage ≠ .double → store.scalar? index = none
  reference : storage ≠ .reference → store.references[index]?.getD .nil = .nil

/-- Whether two instances agree in every place for a field. -/
structure AgreesAt (index : Nat) (store other : Instance) : Prop where
  scalar : other.scalar? index = store.scalar? index
  reference : other.references[index]? = store.references[index]?
  overflow : inlineFields ≤ index →
    other.overflow[index - inlineFields]? = store.overflow[index - inlineFields]?

namespace AgreesAt

theorem refl (index : Nat) (store : Instance) : AgreesAt index store store where
  scalar := rfl
  reference := rfl
  overflow := fun _ => rfl

theorem trans {index : Nat} {first second third : Instance}
    (earlier : AgreesAt index first second) (later : AgreesAt index second third) :
    AgreesAt index first third where
  scalar := later.scalar.trans earlier.scalar
  reference := later.reference.trans earlier.reference
  overflow := fun outside => (later.overflow outside).trans (earlier.overflow outside)

/-- Instances that agree in every place for a field read the same there. -/
theorem read {store other : Instance} {location : Location}
    (agrees : AgreesAt location.index store other)
    (suits : location.storage.Suits location.index) :
    other.read location = store.read location := by
  unfold Instance.read
  cases kind : location.storage with
  | unwritten => rfl
  | integer => simp only [agrees.scalar]
  | double => simp only [agrees.scalar]
  | reference => simp only [agrees.reference]
  | overflow => simp only [agrees.overflow (suits.mp kind)]

theorem fits {store other : Instance} {index : Nat} {storage : Storage}
    (agrees : AgreesAt index store other) (fits : store.Fits index storage) :
    other.Fits index storage where
  suits := fits.suits
  spill := by
    intro spilled
    have present := fits.spill spilled
    have same := agrees.overflow (fits.suits.mp spilled)
    rw [Array.getElem?_eq_getElem present] at same
    exact (Array.getElem?_eq_some_iff.mp same).1
  scalar := fun first second => agrees.scalar.trans (fits.scalar first second)
  reference := fun inline => by
    rw [agrees.reference]
    exact fits.reference inline

end AgreesAt

theorem scalar?_setScalar (store : Instance) (index other : Nat) (word : Option UInt64) :
    (store.setScalar index word).scalar? other =
      if other = index ∧ index < inlineFields then word else store.scalar? other := by
  simp only [scalar?, setScalar, Vector.getElem?_setIfInBounds]
  grind

theorem agreesAt_setScalar (store : Instance) {index other : Nat} (word : Option UInt64)
    (different : other ≠ index) : AgreesAt other store (store.setScalar index word) where
  scalar := by rw [scalar?_setScalar, if_neg (fun same => different same.1)]
  reference := rfl
  overflow := fun _ => rfl

theorem agreesAt_setReference (store : Instance) {index other : Nat} (value : Value)
    (different : other ≠ index) : AgreesAt other store (store.setReference index value) where
  scalar := rfl
  reference := by
    simp only [setReference]
    rw [Vector.getElem?_setIfInBounds_ne different.symm]
  overflow := fun _ => rfl

theorem agreesAt_setOverflow (store : Instance) {index other : Nat} (value : Value)
    (outside : inlineFields ≤ index) (different : other ≠ index) :
    AgreesAt other store (store.setOverflow index value) where
  scalar := rfl
  reference := rfl
  overflow := by
    intro outsideToo
    simp only [setOverflow]
    rw [Array.getElem?_setIfInBounds_ne (by omega)]

/-- An instance after a change to one field: the field is laid out as it should be and reads as the
given value, the other fields are what they were, and whose instance it is and for which shape does
not change. -/
structure Updated (store : Instance) (location : Location) (value : Value) (after : Instance) :
    Prop where
  fits : after.Fits location.index location.storage
  reads : after.read location = value
  others : ∀ other, other ≠ location.index → AgreesAt other store after
  owner : after.owner = store.owner
  shape : after.shape = store.shape

/-- Storing an unboxed word. -/
theorem updated_setScalar {store : Instance} {location : Location}
    (fits : store.Fits location.index location.storage) (word : Option UInt64)
    (scalar : location.storage = .integer ∨ location.storage = .double) :
    store.Updated location ((store.setScalar location.index word).read location)
      (store.setScalar location.index word) where
  fits := {
    suits := fits.suits
    spill := fits.spill
    scalar := fun first second => by
      rcases scalar with same | same
      · exact absurd same first
      · exact absurd same second
    reference := fits.reference }
  reads := rfl
  others := fun other different => agreesAt_setScalar store word different
  owner := rfl
  shape := rfl

/-- Storing an inline reference, with the unboxed word empty. -/
theorem updated_setReference {store : Instance} {location : Location}
    (suits : location.storage.Suits location.index)
    (empty : store.scalar? location.index = none) (value : Value)
    (reference : location.storage = .reference) :
    store.Updated location value (store.setReference location.index value) := by
  have inside : location.index < inlineFields := by
    by_cases outside : inlineFields ≤ location.index
    · have spilled := suits.mpr outside
      rw [reference] at spilled
      cases spilled
    · omega
  exact {
    fits := {
      suits := suits
      spill := fun spilled => by
        rw [reference] at spilled
        cases spilled
      scalar := fun _ _ => empty
      reference := fun different => absurd reference different }
    reads := by
      simp only [read, reference, setReference]
      rw [Vector.getElem?_setIfInBounds_self_of_lt inside]
      rfl
    others := fun other different => agreesAt_setReference store value different
    owner := rfl
    shape := rfl }

/-- Storing a value in the overflow. -/
theorem updated_setOverflow {store : Instance} {location : Location}
    (fits : store.Fits location.index location.storage) (value : Value)
    (spilled : location.storage = .overflow) :
    store.Updated location value (store.setOverflow location.index value) where
  fits := {
    suits := fits.suits
    spill := fun _ => by
      simp only [setOverflow, Array.size_setIfInBounds]
      exact fits.spill spilled
    scalar := fits.scalar
    reference := fits.reference }
  reads := by
    simp only [read, spilled, setOverflow]
    rw [Array.getElem?_setIfInBounds_self_of_lt (fits.spill spilled)]
    rfl
  others := fun other different =>
    agreesAt_setOverflow store value (fits.suits.mp spilled) different
  owner := rfl
  shape := rfl

/-- A write that is accepted makes the field read as the value written. -/
theorem updated_write? {store written : Instance} {location : Location} {value : Value}
    (fits : store.Fits location.index location.storage)
    (accepted : store.write? location value = some written) :
    store.Updated location value written := by
  obtain ⟨storage, index, shape⟩ := location
  have inside : storage ≠ .overflow → index < inlineFields := by
    intro inline
    by_cases outside : inlineFields ≤ index
    · exact absurd (fits.suits.mpr outside) inline
    · omega
  cases storage with
  | unwritten => cases accepted
  | integer =>
      cases value with
      | integer number =>
          cases accepted
          have updated := updated_setScalar fits (some number.toUInt64) (Or.inl rfl)
          simp only [read, scalar?_setScalar, inside (by simp), and_self, if_true] at updated
          simpa using updated
      | _ => cases accepted
  | double =>
      cases value with
      | double number =>
          cases accepted
          have updated := updated_setScalar fits (some number.bits) (Or.inr rfl)
          simp only [read, scalar?_setScalar, inside (by simp), and_self, if_true] at updated
          exact updated
      | _ => cases accepted
  | reference =>
      cases accepted
      exact updated_setReference fits.suits (fits.scalar (by simp) (by simp)) value rfl
  | overflow =>
      cases accepted
      exact updated_setOverflow fits value rfl

/-- Forgetting a field leaves the other fields alone. -/
theorem agreesAt_clear {store : Instance} {location : Location}
    (suits : location.storage.Suits location.index) {other : Nat}
    (different : other ≠ location.index) : AgreesAt other store (store.clear location) := by
  unfold clear
  cases kind : location.storage with
  | unwritten => exact .refl other store
  | integer => exact agreesAt_setScalar store none different
  | double => exact agreesAt_setScalar store none different
  | reference => exact agreesAt_setReference store .nil different
  | overflow => exact agreesAt_setOverflow store .nil (suits.mp kind) different

/-- An unboxed field that becomes a reference keeps its value. -/
theorem updated_relocate_scalar {store : Instance} {old new : Location}
    (same : old.index = new.index) (fits : store.Fits old.index old.storage)
    (scalar : old.storage = .integer ∨ old.storage = .double)
    (reference : new.storage = .reference) :
    store.Updated new (store.read old) (store.relocate old new) := by
  have different : old.storage ≠ new.storage := by
    rw [reference]
    rcases scalar with kind | kind <;> rw [kind] <;> simp
  have suits : new.storage.Suits new.index := by
    have before := fits.suits
    rw [← same, reference]
    rcases scalar with kind | kind <;> rw [kind] at before <;> simpa [Storage.Suits] using before
  have cleared : store.clear old = store.setScalar old.index none := by
    unfold clear
    rcases scalar with kind | kind <;> rw [kind]
  have empty : (store.clear old).scalar? new.index = none := by
    rw [cleared, scalar?_setScalar, ← same]
    by_cases inside : old.index < inlineFields
    · simp [inside]
    · simp only [inside, and_false, if_false, scalar?]
      rw [Vector.getElem?_eq_none (by simpa using inside)]
      rfl
  have blank : (store.clear old).references[new.index]?.getD .nil = .nil := by
    rw [cleared, ← same]
    apply fits.reference
    rcases scalar with kind | kind <;> rw [kind] <;> simp
  have apart : ∀ other, other ≠ new.index → AgreesAt other store (store.clear old) :=
    fun other away => agreesAt_clear fits.suits (same.symm ▸ away)
  have kept : (store.clear old).owner = store.owner ∧ (store.clear old).shape = store.shape := by
    rw [cleared]
    exact ⟨rfl, rfl⟩
  unfold relocate
  rw [if_neg different]
  dsimp only
  by_cases unset : store.read old = .nil
  · rw [if_pos unset, unset]
    exact {
      fits := {
        suits := suits
        spill := fun spilled => by
          rw [reference] at spilled
          cases spilled
        scalar := fun _ _ => empty
        reference := fun other => absurd reference other }
      reads := by
        simp only [read, reference]
        exact blank
      others := apart
      owner := kept.1
      shape := kept.2 }
  · rw [if_neg unset]
    have moved := updated_setReference suits empty (store.read old) reference
    have written : (store.clear old).write? new (store.read old) =
        some ((store.clear old).setReference new.index (store.read old)) := by
      simp only [write?, reference]
    rw [written]
    exact {
      fits := moved.fits
      reads := moved.reads
      others := fun other away => (apart other away).trans (moved.others other away)
      owner := moved.owner.trans kept.1
      shape := moved.shape.trans kept.2 }

/-- A field that was never written reads as nil wherever it is looked for. -/
theorem read_unwritten {store : Instance} {location : Location}
    (fits : store.Fits location.index .unwritten) (inline : location.storage ≠ .overflow) :
    store.read location = .nil := by
  have word := fits.scalar (by simp) (by simp)
  unfold read
  cases kind : location.storage with
  | unwritten => rfl
  | integer => simp only [word]
  | double => simp only [word]
  | reference => exact fits.reference (by simp)
  | overflow => exact absurd kind inline

/-- Moving a field keeps its value and leaves the other fields alone. -/
theorem updated_relocate {store : Instance} {old new : Location} (same : old.index = new.index)
    (fits : store.Fits old.index old.storage) (widens : old.storage.Widens new.storage) :
    store.Updated new (store.read old) (store.relocate old new) := by
  by_cases unchanged : old.storage = new.storage
  · have still : store.relocate old new = store := if_pos unchanged
    rw [still]
    exact {
      fits := same ▸ unchanged ▸ fits
      reads := by
        unfold read
        rw [same, unchanged]
      others := fun other _ => .refl other store
      owner := rfl
      shape := rfl }
  · cases kind : old.storage with
    | unwritten =>
        rw [kind] at fits widens
        have nothing : store.read old = .nil := by
          unfold read
          rw [kind]
        have still : store.relocate old new = store := by
          unfold relocate
          rw [if_neg unchanged]
          simp only [nothing, if_true, clear, kind]
        rw [still, nothing]
        rw [same] at fits
        exact {
          fits := {
            suits := by
              have before := fits.suits
              simp only [Storage.Suits] at before ⊢
              exact ⟨fun spilled => absurd spilled widens, fun outside => by
                cases before.mpr outside⟩
            spill := fun spilled => absurd spilled widens
            scalar := fun _ _ => fits.scalar (by simp) (by simp)
            reference := fun _ => fits.reference (by simp) }
          reads := read_unwritten fits widens
          others := fun other _ => .refl other store
          owner := rfl
          shape := rfl }
    | integer =>
        rw [kind] at widens unchanged
        exact updated_relocate_scalar same fits (Or.inl kind)
          (widens.resolve_left fun still => unchanged still.symm)
    | double =>
        rw [kind] at widens unchanged
        exact updated_relocate_scalar same fits (Or.inr kind)
          (widens.resolve_left fun still => unchanged still.symm)
    | reference =>
        rw [kind] at widens unchanged
        exact absurd widens.symm unchanged
    | overflow =>
        rw [kind] at widens unchanged
        exact absurd widens.symm unchanged

/-- The two locations of one field in two shapes. -/
def relocation? (old new : Shape) (index : Nat) : Option (Location × Location) :=
  match old.location? index, new.location? index with
  | some before, some after => some (before, after)
  | _, _ => none

/-- The fields of two shapes in pairs, one after the other. -/
theorem zip_locations (old new : Shape) :
    old.locations.toList.zip new.locations.toList =
      (List.range old.storages.size).filterMap (relocation? old new) := by
  have paired : ∀ first second : List Location, first.zip second =
      (List.range first.length).filterMap fun index =>
        match first[index]?, second[index]? with
        | some before, some after => some (before, after)
        | _, _ => none := by
    intro first
    induction first with
    | nil => exact fun second => rfl
    | cons location rest inductionHypothesis =>
        intro second
        cases second with
        | nil => simp
        | cons other others =>
            rw [List.zip_cons_cons, List.length_cons, List.range_succ_eq_map, List.filterMap_cons,
              List.filterMap_map, inductionHypothesis]
            rfl
  rw [paired, Shape.size_storages, Array.length_toList]
  simp only [Array.getElem?_toList]
  rfl

/-- An instance after some of its fields were moved from one shape to another: these fields are
laid out for the new shape and read there what they read before, and the others were not touched. -/
structure Moved (old new : Shape) (indices : List Nat) (store after : Instance) :
    Prop where
  fits : ∀ index ∈ indices, ∀ before storage, old.storages[index]? = some before →
    new.storages[index]? = some storage → after.Fits index storage
  reads : ∀ index ∈ indices, ∀ before storage, old.storages[index]? = some before →
    new.storages[index]? = some storage →
      after.read ⟨storage, index, new.id⟩ = store.read ⟨before, index, old.id⟩
  others : ∀ index, index ∉ indices → AgreesAt index store after
  owner : after.owner = store.owner

/-- Whether fields can be moved from one shape to another. -/
def Movable (old new : Shape) (indices : List Nat) (store : Instance) : Prop :=
  ∀ index ∈ indices, ∀ before storage, old.storages[index]? = some before →
    new.storages[index]? = some storage → store.Fits index before ∧ before.Widens storage

section Moving

variable {old new : Shape} {first second : List Nat} {store between after : Instance}

theorem Movable.of_moved (movable : Movable old new second store)
    (earlier : Moved old new first store between)
    (apart : ∀ index ∈ second, index ∉ first) : Movable old new second between := by
  intro index member before storage hadBefore hasNow
  have ready := movable index member before storage hadBefore hasNow
  exact ⟨(earlier.others index (apart index member)).fits ready.1, ready.2⟩

/-- Moving some fields and then others moves them all. -/
theorem Moved.append (earlier : Moved old new first store between)
    (later : Moved old new second between after) (movable : Movable old new second store)
    (apart : ∀ index ∈ second, index ∉ first) : Moved old new (first ++ second) store after where
  fits := by
    intro index member before storage hadBefore hasNow
    by_cases late : index ∈ second
    · exact later.fits index late before storage hadBefore hasNow
    · have early := (List.mem_append.mp member).resolve_right late
      exact (later.others index late).fits
        (earlier.fits index early before storage hadBefore hasNow)
  reads := by
    intro index member before storage hadBefore hasNow
    by_cases late : index ∈ second
    · have untouched := earlier.others index (apart index late)
      have ready := movable index late before storage hadBefore hasNow
      calc
        after.read ⟨storage, index, new.id⟩ = between.read ⟨before, index, old.id⟩ :=
          later.reads index late before storage hadBefore hasNow
        _ = store.read ⟨before, index, old.id⟩ := untouched.read ready.1.suits
    · have early := (List.mem_append.mp member).resolve_right late
      have settled := earlier.fits index early before storage hadBefore hasNow
      calc
        after.read ⟨storage, index, new.id⟩ = between.read ⟨storage, index, new.id⟩ :=
          AgreesAt.read (later.others index late) settled.suits
        _ = store.read ⟨before, index, old.id⟩ :=
          earlier.reads index early before storage hadBefore hasNow
  others := by
    intro index outside
    exact (earlier.others index fun member => outside (List.mem_append_left _ member)).trans
      (later.others index fun member => outside (List.mem_append_right _ member))
  owner := later.owner.trans earlier.owner

/-- One field on its move. -/
theorem moved_single {old new : Shape} (stampedOld : old.Stamped old.id)
    (stampedNew : new.Stamped new.id) (index : Nat) (store : Instance)
    (movable : Movable old new [index] store) :
    Moved old new [index] store (((relocation? old new index).toList).foldl
      (fun store pair => store.relocate pair.1 pair.2) store) := by
  have member : index ∈ [index] := List.mem_singleton_self index
  cases hadBefore : old.storages[index]? with
  | none =>
      have nowhere : relocation? old new index = none := by
        simp [relocation?, stampedOld.location?_eq, hadBefore]
      rw [nowhere]
      exact {
        fits := fun other same before storage had => by
          cases List.mem_singleton.mp same
          rw [hadBefore] at had
          cases had
        reads := fun other same before storage had => by
          cases List.mem_singleton.mp same
          rw [hadBefore] at had
          cases had
        others := fun other _ => .refl other store
        owner := rfl }
  | some before =>
      cases hasNow : new.storages[index]? with
      | none =>
          have nowhere : relocation? old new index = none := by
            simp [relocation?, stampedNew.location?_eq, hasNow]
          rw [nowhere]
          exact {
            fits := fun other same before storage _ has => by
              cases List.mem_singleton.mp same
              rw [hasNow] at has
              cases has
            reads := fun other same before storage _ has => by
              cases List.mem_singleton.mp same
              rw [hasNow] at has
              cases has
            others := fun other _ => .refl other store
            owner := rfl }
      | some storage =>
          let source : Location := ⟨before, index, old.id⟩
          let target : Location := ⟨storage, index, new.id⟩
          have found : relocation? old new index = some (source, target) := by
            simp [relocation?, stampedOld.location?_eq, stampedNew.location?_eq, hadBefore, hasNow,
              source, target]
          rw [found]
          obtain ⟨fits, widens⟩ := movable index member before storage hadBefore hasNow
          have same : source.index = target.index := rfl
          have updated := updated_relocate same fits widens
          exact {
            fits := fun other same earlier later had has => by
              cases List.mem_singleton.mp same
              rw [hasNow] at has
              cases has
              exact updated.fits
            reads := fun other same earlier later had has => by
              cases List.mem_singleton.mp same
              rw [hadBefore] at had
              rw [hasNow] at has
              cases had
              cases has
              exact updated.reads
            others := fun other outside =>
              updated.others other fun same => outside (List.mem_singleton.mpr same)
            owner := updated.owner }

theorem moved_foldl {old new : Shape} (stampedOld : old.Stamped old.id)
    (stampedNew : new.Stamped new.id) (indices : List Nat) (distinct : indices.Nodup)
    (store : Instance) (movable : Movable old new indices store) :
    Moved old new indices store ((indices.filterMap (relocation? old new)).foldl
      (fun store pair => store.relocate pair.1 pair.2) store) := by
  induction indices generalizing store with
  | nil =>
      exact {
        fits := fun index member => by cases member
        reads := fun index member => by cases member
        others := fun index _ => .refl index store
        owner := rfl }
  | cons first rest inductionHypothesis =>
      obtain ⟨unrepeated, restDistinct⟩ := List.nodup_cons.mp distinct
      have apart : ∀ index ∈ rest, index ∉ [first] := by
        intro index member same
        exact unrepeated (List.mem_singleton.mp same ▸ member)
      have firstMovable : Movable old new [first] store := fun index member =>
        movable index (List.mem_singleton.mp member ▸ List.mem_cons_self)
      have restMovable : Movable old new rest store := fun index member =>
        movable index (List.mem_cons_of_mem _ member)
      have earlier := moved_single stampedOld stampedNew first store firstMovable
      have later := inductionHypothesis restDistinct _ (restMovable.of_moved earlier apart)
      have all := earlier.append later restMovable apart
      rw [← List.foldl_append] at all
      have split : (first :: rest).filterMap (relocation? old new) =
          (relocation? old new first).toList ++ rest.filterMap (relocation? old new) := by
        rw [List.filterMap_cons]
        cases relocation? old new first <;> rfl
      rw [split]
      exact all

end Moving

/-- A migrated instance is laid out for the new shape, and every field reads as before. -/
theorem moved_migrate {store : Instance} {old new : Shape} (stampedOld : old.Stamped old.id)
    (stampedNew : new.Stamped new.id)
    (movable : Movable old new (List.range old.storages.size) store) :
    Moved old new (List.range old.storages.size) store (store.migrate old new) := by
  have moved := moved_foldl stampedOld stampedNew _ List.nodup_range store movable
  rw [← zip_locations] at moved
  exact {
    fits := fun index member before storage hadBefore hasNow =>
      { moved.fits index member before storage hadBefore hasNow with }
    reads := moved.reads
    others := fun index outside => { moved.others index outside with }
    owner := moved.owner }

end Instance

end MessageMachine
