import MessageMachine.Proofs.ShapeChain
import MessageMachine.Proofs.Storage

/-!
# The evolution of shapes

Any write to any instance may give a class a new shape, registering a class adds two shapes to the
arena that all classes share, and instances and field sites hold on to shapes that were replaced
long ago.  Through all of that the shapes of each class form one chain, an instance records a shape
in the chain of its own class, and a field site remembers the location of its own field.
-/

namespace MessageMachine

namespace Image

/-- The shape that an instance records is one of those of its class. -/
structure Records (image : Image) (store : Instance) : Prop where
  owner : image.classes.Has store.owner
  known : image.shapes.Has store.shape
  owned : (image.shapeAt store.shape).owner = store.owner

/-- The shapes of an image have evolved in chains, and instances and field sites go along. -/
structure Evolved (image : Image) : Prop where
  owners : ∀ shape, image.shapes.Has shape → image.classes.Has (image.shapeAt shape).owner
  chains : ∀ ref, image.classes.Has ref → ∃ chain, image.Chain ref chain
  objects : ∀ ref, image.heap.objects.Has ref → image.Records (image.objectAt ref)
  /-- Only sites of prepared code remember anything. -/
  sites : ∀ site location, image.sites.fields.get site = some location →
    ∃ index, image.AccessesField site index

namespace Evolved

variable {before image after : Image}

/-- The current shape of a class is one of its own. -/
theorem current (evolved : image.Evolved) {ref : ClassRef} (known : image.classes.Has ref) :
    image.shapes.Has (image.classAt ref).shape ∧
      (image.shapeAt (image.classAt ref).shape).owner = ref := by
  obtain ⟨chain, chained⟩ := evolved.chains ref known
  exact (chained.members _).mp chained.current_mem

/-- A class and its current shape agree on the reference of the shape. -/
theorem currentId (evolved : image.Evolved) {ref : ClassRef} (known : image.classes.Has ref) :
    (image.shapeAt (image.classAt ref).shape).id = (image.classAt ref).shape := by
  obtain ⟨chain, chained⟩ := evolved.chains ref known
  exact (chained.stamped _ chained.current_mem).id

/-- A change that touches neither shapes nor classes, up to what a class has besides its shape and
its fields. -/
theorem frame (evolved : before.Evolved) (shapes : after.shapes = before.shapes)
    (classCount : after.classes.size = before.classes.size)
    (shape : ∀ ref, (after.classAt ref).shape = (before.classAt ref).shape)
    (fields : ∀ ref, (after.classAt ref).fields = (before.classAt ref).fields)
    (objects : ∀ ref, after.heap.objects.Has ref → before.Records (after.objectAt ref))
    (sites : ∀ site location, after.sites.fields.get site = some location →
      ∃ index, after.AccessesField site index) : after.Evolved := by
  have sameShape : ∀ ref, after.shapeAt ref = before.shapeAt ref := fun ref => by
    simp only [shapeAt, shapes]
  have has : ∀ ref, after.classes.Has ref ↔ before.classes.Has ref := fun ref => by
    simp only [Arena.Has, classCount]
  exact {
    owners := fun ref known => by
      rw [shapes] at known
      rw [sameShape, has]
      exact evolved.owners ref known
    chains := fun ref known => by
      obtain ⟨chain, chained⟩ := evolved.chains ref ((has ref).mp known)
      exact ⟨chain, chained.frame (fun shape => by rw [shapes, sameShape])
        (fun shape _ _ => sameShape shape) (shape ref) (fields ref)⟩
    objects := fun ref known => by
      have records := objects ref known
      exact {
        owner := (has _).mpr records.owner
        known := by rw [shapes]; exact records.known
        owned := by rw [sameShape]; exact records.owned }
    sites := sites }

/-- A change that touches no instance and no field site either. -/
theorem unchanged (evolved : before.Evolved) (extended : before.Extends after)
    (shapes : after.shapes = before.shapes)
    (classCount : after.classes.size = before.classes.size)
    (shape : ∀ ref, (after.classAt ref).shape = (before.classAt ref).shape)
    (fields : ∀ ref, (after.classAt ref).fields = (before.classAt ref).fields)
    (objects : after.heap.objects = before.heap.objects)
    (fieldSites : ∀ site, after.sites.fields.get site = before.sites.fields.get site) :
    after.Evolved := by
  refine evolved.frame shapes classCount shape fields (fun ref known => ?_)
    (fun site location remembered => ?_)
  · rw [objects] at known
    rw [objectAt, objects]
    exact evolved.objects ref known
  · rw [fieldSites] at remembered
    obtain ⟨index, accesses⟩ := evolved.sites site location remembered
    exact ⟨index, accesses.imp (·.mono extended) (·.mono extended)⟩

theorem setObject (evolved : image.Evolved) (ref : ObjectRef) {store : Instance}
    (records : image.Records store) : (image.setObject ref store).Evolved := by
  refine evolved.frame rfl rfl (fun _ => rfl) (fun _ => rfl) (fun other known => ?_) evolved.sites
  rw [objectAt_setObject]
  split
  · exact records
  · exact evolved.objects other ((Arena.has_set _ _ _ _).mp known)

theorem setFieldSite (evolved : image.Evolved) {site : FieldSiteRef} {index : Nat}
    (accesses : image.AccessesField site index) (location : Location) :
    (image.setFieldSite site location).Evolved := by
  refine evolved.frame rfl rfl (fun _ => rfl) (fun _ => rfl) evolved.objects
    (fun other held remembered => ?_)
  simp only [Image.setFieldSite, Arena.get_set] at remembered
  split at remembered
  · next same => exact ⟨index, same.1 ▸ accesses⟩
  · exact evolved.sites other held remembered

/-- An accepted write leaves an instance in its shape. -/
theorem setWritten (evolved : image.Evolved) {ref : ObjectRef} {location : Location}
    {value : Value} {written : Instance} (known : image.heap.objects.Has ref)
    (accepted : (image.objectAt ref).write? location value = some written) :
    (image.setObject ref written).Evolved := by
  have records := evolved.objects ref known
  have shape : written.shape = (image.objectAt ref).shape := by
    unfold Instance.write? at accepted
    split at accepted <;> cases accepted <;> rfl
  have owner := Instance.owner_write? accepted
  exact evolved.setObject ref {
    owner := by rw [owner]; exact records.owner
    known := by rw [shape]; exact records.known
    owned := by rw [shape, owner]; exact records.owned }

/-- A migrated instance records the current shape of its class. -/
theorem revalidate (evolved : image.Evolved) {ref : ObjectRef}
    (known : image.heap.objects.Has ref) : (image.revalidate ref).Evolved := by
  rcases image.revalidate_cases ref with ⟨-, same⟩ | ⟨-, journal, result⟩
  · rw [same]
    exact evolved
  · have records := evolved.objects ref known
    obtain ⟨has, owned⟩ := evolved.current records.owner
    have owner := Instance.owner_migrate (image.objectAt ref)
      (image.shapeAt (image.objectAt ref).shape)
      (image.shapeAt (image.classAt (image.objectAt ref).owner).shape)
    have shape : ((image.objectAt ref).migrate (image.shapeAt (image.objectAt ref).shape)
        (image.shapeAt (image.classAt (image.objectAt ref).owner).shape)).shape =
          (image.classAt (image.objectAt ref).owner).shape := evolved.currentId records.owner
    have migrated : image.Records ((image.objectAt ref).migrate
        (image.shapeAt (image.objectAt ref).shape)
        (image.shapeAt (image.classAt (image.objectAt ref).owner).shape)) := {
      owner := by rw [owner]; exact records.owner
      known := by rw [shape]; exact has
      owned := by rw [shape, owner]; exact owned }
    rw [result]
    exact (evolved.setObject ref migrated).unchanged { Extends.refl _ with } rfl rfl
      (fun _ => rfl) (fun _ => rfl) rfl (fun _ => rfl)

/-- Giving a class a new shape by a strict step keeps all chains. -/
theorem generalize (evolved : image.Evolved) {ref : ClassRef} {index : Nat}
    {had storage : Storage} (known : image.classes.Has ref)
    (stored : (image.shapeAt (image.classAt ref).shape).storages[index]? = some had)
    (step : had.Step storage) (suits : storage.Suits index) :
    (image.generalize ref index storage).Evolved := by
  have reshaped := image.reshaped_generalize ref index storage
  obtain ⟨hasCurrent, ownsCurrent⟩ := evolved.current known
  have newest : (image.generalize ref index storage).shapeAt image.shapes.next =
      (image.shapeAt (image.classAt ref).shape).derive image.shapes.next index storage := by
    rw [shapeAt_generalize, if_pos rfl]
  have has : ∀ other, (image.generalize ref index storage).classes.Has other ↔
      image.classes.Has other := fun other => by
    simp only [Arena.Has, reshaped.classCount]
  exact {
    owners := fun shape present => by
      rw [has]
      rcases (image.has_generalize ref index storage shape).mp present with old | rfl
      · rw [reshaped.owner old]
        exact evolved.owners shape old
      · rw [newest]
        exact ownsCurrent.symm ▸ known
    chains := fun other present => by
      obtain ⟨chain, chained⟩ := evolved.chains other ((has other).mp present)
      by_cases same : other = ref
      · subst same
        exact ⟨_, chained.generalize known stored step suits⟩
      · refine ⟨chain, chained.frame (fun shape => ?_) (fun shape old owner => ?_) ?_
          (reshaped.fields other)⟩
        · rw [has_generalize]
          constructor
          · rintro ⟨old | rfl, owner⟩
            · exact ⟨old, (reshaped.owner old).symm.trans owner⟩
            · rw [newest] at owner
              exact absurd (owner.symm.trans ownsCurrent) same
          · rintro ⟨old, owner⟩
            exact ⟨Or.inl old, (reshaped.owner old).trans owner⟩
        · have different : shape ≠ (image.classAt ref).shape := by
            rintro rfl
            exact same (owner.symm.trans ownsCurrent)
          rw [shapeAt_generalize, if_neg old.ne_next, if_neg (fun replaced => different replaced.1)]
        · rcases reshaped.classes other with unchanged | ⟨changed, -⟩
          · rw [unchanged]
          · exact absurd changed same
    objects := fun other present => by
      rw [reshaped.heap] at present
      rw [reshaped.objectAt]
      have records := evolved.objects other present
      exact {
        owner := (has _).mpr records.owner
        known := reshaped.known _ records.known
        owned := (reshaped.owner records.known).trans records.owned }
    sites := fun site location remembered => by
      rw [reshaped.sites] at remembered
      obtain ⟨place, accesses⟩ := evolved.sites site location remembered
      refine ⟨place, ?_⟩
      simpa only [AccessesField, Outlines, methodAt, reshaped.methods] using accesses }

/-- Writing a field of an object gives its class a new shape only if the value is not accepted. -/
theorem writeInstance (evolved : image.Evolved) (laid : image.Laid) {ref : ObjectRef}
    (known : image.heap.objects.Has ref) (index : Nat) (value : Value) :
    (image.writeInstance ref index value).2.Evolved := by
  have updated := laid.revalidate known
  have evolvedNow := evolved.revalidate known
  unfold Image.writeInstance
  dsimp only
  generalize image.revalidate ref = now at updated evolvedNow
  have records := evolvedNow.objects ref updated.known
  obtain ⟨-, storage, stored, fits, found⟩ | ⟨-, absent⟩ :=
    (updated.steady.laid.objects ref updated.known).locate? index
  · simp only [found]
    cases accepted : (now.objectAt ref).write? ⟨storage, index, (now.objectAt ref).shape⟩ value with
    | some written => exact evolvedNow.setWritten updated.known accepted
    | none =>
        have rejected := Instance.isSome_write? (now.objectAt ref)
          ⟨storage, index, (now.objectAt ref).shape⟩ value
        rw [accepted] at rejected
        have step := Storage.step_generalize fits.suits rejected.symm
        rw [updated.shape] at stored
        have reshaped := evolvedNow.generalize records.owner stored step
          (Storage.widens_generalize fits.suits value).2
        have heap := (now.reshaped_generalize (now.objectAt ref).owner index
          (storage.generalize index value)).heap
        have present : (now.generalize (now.objectAt ref).owner index
            (storage.generalize index value)).heap.objects.Has ref := by
          rw [heap]
          exact updated.known
        have anything : ∀ value : Value, value.IsPlain → value.IsNormal → True :=
          fun _ _ _ => trivial
        have presentThen := Nat.lt_of_lt_of_le present
          (revalidate_tended anything _ ref).extended.objects
        have latest := reshaped.revalidate present
        dsimp only
        generalize (now.generalize (now.objectAt ref).owner index
          (storage.generalize index value)).revalidate ref = last at latest presentThen
        cases located : last.locate? (last.objectAt ref) index with
        | none => simpa only [writeLocated?, located] using latest
        | some location =>
            cases written : (last.objectAt ref).write? location value with
            | none => simpa only [writeLocated?, located, written] using latest
            | some store =>
                simpa only [writeLocated?, located, written] using
                  latest.setWritten presentThen written
  · simp only [absent]
    exact evolvedNow

theorem readField (evolved : image.Evolved) {receiver : Value} (known : receiver.Exists image)
    (index : Nat) : (image.readField receiver index).2.Evolved := by
  cases receiver with
  | object ref => exact evolved.revalidate known
  | _ => exact evolved

theorem writeField (evolved : image.Evolved) (laid : image.Laid) {receiver : Value}
    (known : receiver.Exists image) (index : Nat) (value : Value) :
    (image.writeField receiver index value).2.Evolved := by
  cases receiver with
  | object ref =>
      have written := evolved.writeInstance laid known index value
      simp only [Image.writeField]
      exact written
  | classObject ref =>
      unfold Image.writeField
      dsimp only
      split
      · refine evolved.unchanged { Extends.refl image with
          classes := Nat.le_of_eq (Arena.size_modify _ _ _).symm } rfl (Arena.size_modify _ _ _)
          (fun other => ?_) (fun other => ?_) rfl (fun _ => rfl)
        all_goals
          rw [classAt_modifyClass]
          split
          all_goals rfl
      · exact evolved
  | _ => exact evolved

theorem readFieldAt (evolved : image.Evolved) {receiver : Value} (known : receiver.Exists image)
    {site : FieldSiteRef} {index : Nat} (accesses : image.AccessesField site index) :
    (image.readFieldAt site receiver index).2.Evolved := by
  cases receiver with
  | object ref =>
      have anything : ∀ value : Value, value.IsPlain → value.IsNormal → True :=
        fun _ _ _ => trivial
      have extended := (revalidate_tended anything image ref).extended
      have accessesNow : (image.revalidate ref).AccessesField site index :=
        accesses.imp (·.mono extended) (·.mono extended)
      unfold Image.readFieldAt
      dsimp only
      split
      · exact evolved
      · split
        · exact (evolved.revalidate known).setFieldSite accessesNow _
        · exact evolved.revalidate known
  | _ => exact evolved.readField known index

theorem writeFieldAt (evolved : image.Evolved) (laid : image.Laid) {receiver value : Value}
    (known : receiver.Exists image) (incoming : value.Exists image) {site : FieldSiteRef}
    {index : Nat} (accesses : image.AccessesField site index) :
    (image.writeFieldAt site receiver index value).2.Evolved := by
  cases receiver with
  | object ref =>
      have plain : ∀ value : Value, value.IsPlain → value.IsNormal → value.Exists image :=
        fun value plain _ => plain.exists image
      have extended := (writeInstance_tended plain image ref index incoming).extended
      have written := evolved.writeInstance laid known index value
      unfold Image.writeFieldAt
      dsimp only
      split
      · next accepted =>
          obtain ⟨location, -, success⟩ := Option.bind_eq_some_iff.mp accepted
          exact evolved.setWritten known success
      · split
        · next result =>
            rw [result] at extended written
            exact written.setFieldSite
              (accesses.imp (·.mono extended) (·.mono extended)) _
        · next result =>
            rw [result] at written
            exact written
  | _ => exact evolved.writeField laid known index value

/-- A fresh instance records the current shape of its class. -/
theorem instantiate (evolved : image.Evolved) {owner : ClassRef}
    (known : image.classes.Has owner) : (image.instantiate owner).2.Evolved := by
  obtain ⟨has, owned⟩ := evolved.current known
  have shape : (Instance.ofShape owner (image.shapeAt (image.classAt owner).shape)).shape =
      (image.classAt owner).shape := evolved.currentId known
  refine evolved.frame rfl rfl (fun _ => rfl) (fun _ => rfl) (fun ref present => ?_) evolved.sites
  rw [objectAt_instantiate]
  split
  · exact {
      owner := known
      known := by rw [shape]; exact has
      owned := by rw [shape]; exact owned }
  · next different =>
      exact evolved.objects ref (((Arena.has_push _ _ _).mp present).resolve_right different)

end Evolved

section Registration

variable (image : Image) (name : String) (superclass : ClassRef) (fields classFields : List String)

/-- A registration adds two shapes. -/
theorem has_shape_register (shape : ShapeRef) :
    ((Action.register name superclass fields classFields).perform image).shapes.Has shape ↔
      image.shapes.Has shape ∨ shape = image.shapes.next ∨ shape = ⟨image.shapes.size + 1⟩ := by
  simp only [Action.perform, registerPair_eq, Arena.has_push, or_assoc, Arena.next,
    Arena.size_push]

/-- The first of the shapes that a registration adds is that of the metaclass. -/
theorem shapeAt_register_metaclass :
    ((Action.register name superclass fields classFields).perform image).shapeAt
        image.shapes.next =
      .initial image.shapes.next image.classes.next
        (image.newMetaclass name superclass classFields).fields.length := by
  have apart : image.shapes.size ≠ image.shapes.size + 1 := by omega
  simp only [Action.perform, registerPair_eq, shapeAt, Arena.get_push, Arena.next,
    Arena.size_push, Ref.mk.injEq, apart, if_true, if_false]

/-- The second of the shapes that a registration adds is that of the class. -/
theorem shapeAt_register_class :
    ((Action.register name superclass fields classFields).perform image).shapeAt
        ⟨image.shapes.size + 1⟩ =
      .initial ⟨image.shapes.size + 1⟩ ⟨image.classes.size + 1⟩
        (image.newClass name superclass fields classFields).fields.length := by
  simp only [Action.perform, registerPair_eq, shapeAt, Arena.get_push, Arena.next,
    Arena.size_push, if_true]

end Registration

/-- The shapes that there were belong to older classes, and the two new ones to the metaclass and to
the class. -/
theorem Evolved.owner_register {image : Image} (evolved : image.Evolved) {name : String}
    {superclass : ClassRef} {fields classFields : List String} {shape : ShapeRef}
    (present :
      ((Action.register name superclass fields classFields).perform image).shapes.Has shape) :
    ∃ owner, (((Action.register name superclass fields classFields).perform image).shapeAt
        shape).owner = owner ∧
      (image.shapes.Has shape ∧ image.classes.Has owner ∨
        shape = image.shapes.next ∧ owner = image.classes.next ∨
        shape = ⟨image.shapes.size + 1⟩ ∧ owner = ⟨image.classes.size + 1⟩) := by
  refine ⟨_, rfl, ?_⟩
  rcases (image.has_shape_register name superclass fields classFields shape).mp present with
    old | rfl | rfl
  · rw [(image.shapeAt_register name superclass fields classFields old).2]
    exact Or.inl ⟨old, evolved.owners shape old⟩
  · rw [shapeAt_register_metaclass]
    exact Or.inr (Or.inl ⟨rfl, rfl⟩)
  · rw [shapeAt_register_class]
    exact Or.inr (Or.inr ⟨rfl, rfl⟩)

theorem Evolved.register {image : Image} (evolved : image.Evolved) {name : String}
    {superclass : ClassRef} {fields classFields : List String}
    (known : image.classes.Has superclass) :
    ((Action.register name superclass fields classFields).perform image).Evolved := by
  have has := image.has_register name superclass fields classFields
  have hasShape := image.has_shape_register name superclass fields classFields
  have kept := fun {ref} => @classAt_register_of_has image name superclass fields classFields ref
  have shapes := fun {shape} => @shapeAt_register image name superclass fields classFields shape
  have metaclassShape := image.shapeAt_register_metaclass name superclass fields classFields
  have classShape := image.shapeAt_register_class name superclass fields classFields
  have extended := Action.extends_perform
    (show (Action.register name superclass fields classFields).Allowed image from known)
  have apart : image.classes.next ≠ ⟨image.classes.size + 1⟩ := by
    intro same
    have index := congrArg Ref.index same
    simp only [Arena.next] at index
    omega
  have beyond : ¬ image.classes.Has ⟨image.classes.size + 1⟩ := by
    simp only [Arena.Has]
    omega
  have absent := image.classes.not_has_next
  have owners := fun {shape} =>
    @Evolved.owner_register image evolved name superclass fields classFields shape
  exact {
    owners := fun shape present => by
      obtain ⟨owner, rfl, ⟨-, old⟩ | ⟨-, new⟩ | ⟨-, new⟩⟩ := owners present
      · exact (has _).mpr (Or.inl old)
      · exact (has _).mpr (Or.inr (Or.inl new))
      · exact (has _).mpr (Or.inr (Or.inr new))
    chains := fun ref present => by
      rcases (has ref).mp present with old | rfl | rfl
      · obtain ⟨chain, chained⟩ := evolved.chains ref old
        refine ⟨chain, chained.frame (fun shape => ?_) (fun shape older _ => (shapes older).2)
          (by rw [kept old]) (by rw [kept old])⟩
        constructor
        · rintro ⟨new, rfl⟩
          obtain ⟨-, rfl, ⟨older, -⟩ | ⟨-, owner⟩ | ⟨-, owner⟩⟩ := owners new
          · exact ⟨older, by rw [(shapes older).2]⟩
          · exact absurd (owner ▸ old) absent
          · exact absurd (owner ▸ old) beyond
        · rintro ⟨older, owner⟩
          exact ⟨(shapes older).1, by rw [(shapes older).2]; exact owner⟩
      · refine ⟨_, .single (fun shape => ?_) (by rw [metaclassShape]; rfl)
          (by rw [metaclassShape]; rfl)
          (image.shaped_register name superclass fields classFields (Or.inl rfl))
          (by rw [classAt_register_metaclass]; rfl)⟩
        constructor
        · rintro ⟨new, owner⟩
          obtain ⟨-, rfl, ⟨-, older⟩ | ⟨same, -⟩ | ⟨-, other⟩⟩ := owners new
          · exact absurd (owner ▸ older) absent
          · exact same
          · exact absurd (owner.symm.trans other) apart
        · rintro rfl
          exact ⟨(hasShape _).mpr (Or.inr (Or.inl rfl)), by rw [metaclassShape]; rfl⟩
      · refine ⟨_, .single (fun shape => ?_) (by rw [classShape]; rfl) (by rw [classShape]; rfl)
          (image.shaped_register name superclass fields classFields (Or.inr rfl))
          (by rw [classAt_register_class]; rfl)⟩
        constructor
        · rintro ⟨new, owner⟩
          obtain ⟨-, rfl, ⟨-, older⟩ | ⟨-, other⟩ | ⟨same, -⟩⟩ := owners new
          · exact absurd (owner ▸ older) beyond
          · exact absurd (other.symm.trans owner) apart
          · exact same
        · rintro rfl
          exact ⟨(hasShape _).mpr (Or.inr (Or.inr rfl)), by rw [classShape]; rfl⟩
    objects := fun ref present => by
      have records := evolved.objects ref present
      exact {
        owner := (has _).mpr (Or.inl records.owner)
        known := (shapes records.known).1
        owned := (congrArg Shape.owner (shapes records.known).2).trans records.owned }
    sites := fun site location remembered => by
      obtain ⟨index, accesses⟩ := evolved.sites site location remembered
      exact ⟨index, accesses.imp (·.mono extended) (·.mono extended)⟩ }

end Image

namespace Action

open Image

variable {image : Image} {action : Action}

/-- Every action keeps the shapes in their chains. -/
theorem evolved_perform (evolved : image.Evolved) (laid : image.Laid)
    (allowed : action.Allowed image) : (action.perform image).Evolved := by
  have extended := extends_perform allowed
  cases action with
  | noteDown | meet | draw | makeArray | setElement | makeBlock | enter | setSlot | leave | settle
  | bind =>
      exact evolved.unchanged extended rfl rfl (fun _ => rfl) (fun _ => rfl) rfl (fun _ => rfl)
  | instantiate owner => exact evolved.instantiate allowed
  | readField receiver index => exact evolved.readField allowed index
  | writeField receiver index value => exact evolved.writeField laid allowed.1 index value
  | readFieldAt site receiver index => exact evolved.readFieldAt allowed.1 allowed.2
  | writeFieldAt site receiver index value =>
      exact evolved.writeFieldAt laid allowed.1 allowed.2.1 allowed.2.2
  | resolve site selector receiver =>
      obtain ⟨calls, journal, -, result⟩ := image.lookupAt_eq site selector receiver
      rw [perform, result] at extended ⊢
      exact evolved.unchanged extended rfl rfl (fun _ => rfl) (fun _ => rfl) rfl (fun _ => rfl)
  | resolveSuper site origin selector =>
      obtain ⟨calls, -, result⟩ := image.lookupSuperAt_eq site origin selector
      rw [perform, result] at extended ⊢
      exact evolved.unchanged extended rfl rfl (fun _ => rfl) (fun _ => rfl) rfl (fun _ => rfl)
  | allocate draft =>
      exact evolved.unchanged extended rfl rfl (fun _ => rfl) (fun _ => rfl) rfl allowed.fields
  | install holder selector behavior =>
      have classes := image.classAt_install_cases holder selector behavior
      obtain ⟨journal, installed⟩ := image.addMethod_eq holder selector behavior
      simp only [perform, installed] at extended classes ⊢
      refine evolved.unchanged extended rfl (Arena.size_modify _ _ _) (fun ref => ?_)
        (fun ref => ?_) rfl (fun _ => rfl)
      all_goals rcases classes ref with same | ⟨-, same⟩ <;> rw [same]
  | remove holder selector =>
      have classes := image.classAt_remove_cases holder selector
      refine evolved.unchanged extended rfl (by simp [perform, removeMethod, modifyClass])
        (fun ref => ?_) (fun ref => ?_) rfl (fun _ => rfl)
      all_goals rcases classes ref with same | same <;> rw [same]
  | register name superclass fields classFields => exact evolved.register allowed

end Action

namespace Image

/-- The core classes have one shape each, at the same place as the class. -/
theorem shapes_founded : ∀ index : Fin 36,
    ((founded .plain .standard false).shapeAt ⟨index⟩).owner = ⟨index⟩ ∧
      ((founded .plain .standard false).shapeAt ⟨index⟩).version = 0 := by
  decide +kernel

theorem evolved_founded : (founded .plain .standard false).Evolved := by
  have classCount := size_classes_founded
  have shapeCount := size_shapes_founded
  have vacant := vacant_founded
  have first : ∀ shape : ShapeRef, (founded .plain .standard false).shapes.Has shape →
      ((founded .plain .standard false).shapeAt shape).owner = ⟨shape.index⟩ ∧
        ((founded .plain .standard false).shapeAt shape).version = 0 := fun shape known =>
    shapes_founded ⟨shape.index, Nat.lt_of_lt_of_eq known shapeCount⟩
  exact {
    owners := fun shape known => by
      rw [(first shape known).1]
      exact Nat.lt_of_lt_of_eq (Nat.lt_of_lt_of_eq known shapeCount) classCount.symm
    chains := fun ref known => by
      have bare := bare_of_has known
      have present : (founded .plain .standard false).shapes.Has ⟨ref.index⟩ :=
        Nat.lt_of_lt_of_eq (Nat.lt_of_lt_of_eq known classCount) shapeCount.symm
      refine ⟨[⟨ref.index⟩], .single (fun shape => ?_) (first _ present).2 bare.current
        (laid_founded.classes ref known) (congrArg Ref.mk bare.shape)⟩
      constructor
      · rintro ⟨has, rfl⟩
        rw [(first shape has).1]
      · rintro rfl
        exact ⟨present, (first _ present).1⟩
    objects := fun ref known => absurd known (Arena.not_has_of_size_eq_zero vacant.objects ref)
    sites := fun site location remembered => by
      rw [Arena.get_of_size_eq_zero vacant.fields] at remembered
      cases remembered }

theorem evolved_initial (platform : Platform) (settings : Settings) (listening : Bool) :
    (initial platform settings listening).Evolved := by
  have start : (founded platform settings listening).Evolved ∧
      (founded platform settings listening).Laid := by
    rw [founded_eq]
    refine ⟨evolved_founded.unchanged { Extends.refl _ with } rfl rfl (fun _ => rfl)
      (fun _ => rfl) rfl (fun _ => rfl), laid_founded.rebased _ _ _⟩
  have keeps : Keeps fun image => image.Evolved ∧ image.Laid :=
    fun image action _ allowed formed ⟨evolved, laid⟩ =>
      ⟨Action.evolved_perform evolved laid allowed, Action.laid_perform laid formed allowed⟩
  exact (initial_induction platform settings listening start keeps).2.1

/-- In every image that a history leads to, the shapes have evolved in chains. -/
theorem Reaches.evolved {platform : Platform} {settings : Settings} {listening : Bool}
    {actions : List Action} {image : Image}
    (reached : (initial platform settings listening).Reaches actions image) :
    image.Evolved := by
  induction reached with
  | start => exact evolved_initial platform settings listening
  | act action earlier allowed inductionHypothesis =>
      exact Action.evolved_perform inductionHypothesis earlier.faithful.laid allowed

/-- In every image that can be reached, the shapes of a class form one chain, whose length is
bounded by the number of inline fields.  An instance records a shape in the chain of its own class,
and a field site that remembers a location remembers that of its own field, in a shape that
exists. -/
theorem shapes_form_chains {platform : Platform} {settings : Settings} {listening : Bool}
    {actions : List Action} {image : Image}
    (reached : (initial platform settings listening).Reaches actions image) :
    (∀ ref, image.classes.Has ref → ∃ chain, image.Chain ref chain ∧
      chain.length ≤ 2 * min (image.classAt ref).fields.length inlineFields + 1 ∧
      ∀ shape ∈ chain, ∀ index,
        (index < (image.classAt ref).fields.length ∧ ∃ storage,
          (image.shapeAt shape).location? index = some { storage, index, shape } ∧
            (storage = .overflow ↔ inlineFields ≤ index)) ∨
        ((image.classAt ref).fields.length ≤ index ∧
          (image.shapeAt shape).location? index = none)) ∧
    (∀ object, image.heap.objects.Has object → ∃ chain,
      image.Chain (image.objectAt object).owner chain ∧ (image.objectAt object).shape ∈ chain) ∧
    ∀ site location, image.sites.fields.get site = some location →
      image.shapes.Has location.shape ∧ ∃ index, image.AccessesField site index ∧
        (image.shapeAt location.shape).location? index = some location ∧
        ∀ other, image.AccessesField site other → other = index := by
  have evolved := reached.evolved
  have faithful := reached.faithful
  refine ⟨fun ref known => ?_, fun object known => ?_, fun site location remembered => ?_⟩
  · obtain ⟨chain, chained⟩ := evolved.chains ref known
    exact ⟨chain, chained, chained.length_le, fun shape member => chained.location? member⟩
  · have records := evolved.objects object known
    obtain ⟨chain, chained⟩ := evolved.chains _ records.owner
    exact ⟨chain, chained, (chained.members _).mpr ⟨records.known, records.owned⟩⟩
  · obtain ⟨index, accesses⟩ := evolved.sites site location remembered
    obtain ⟨has, located⟩ := faithful.laid.sites site index accesses location remembered
    exact ⟨has, index, accesses, located,
      fun other accessesToo => faithful.formed.field_unique accessesToo accesses⟩

/-- A field that is written an integer through one instance and a double through another one takes
its class through three shapes, and the first instance stays behind with the second shape. -/
theorem shapes_form_chains_stale :
    ∃ image chain, (Image.initial .plain .standard false).Reaches
        [.register "Point" ⟨1⟩ ["x"] [], .instantiate ⟨37⟩, .instantiate ⟨37⟩,
          .writeField (.object ⟨0⟩) 0 (.integer 7), .writeField (.object ⟨1⟩) 0 (.double .infinity)]
        image ∧
      image.Chain ⟨37⟩ chain ∧ chain.length = 3 ∧ (image.objectAt ⟨0⟩).shape ∈ chain ∧
      (image.objectAt ⟨0⟩).shape ≠ (image.classAt ⟨37⟩).shape := by
  let start := Image.initial .plain .standard false
  let first := Action.perform start (.register "Point" ⟨1⟩ ["x"] [])
  let second := Action.perform first (.instantiate ⟨37⟩)
  let third := Action.perform second (.instantiate ⟨37⟩)
  let fourth := Action.perform third (.writeField (.object ⟨0⟩) 0 (.integer 7))
  let fifth := Action.perform fourth (.writeField (.object ⟨1⟩) 0 (.double .infinity))
  have computed : start.classes.Has ⟨1⟩ ∧ first.classes.Has ⟨37⟩ ∧ second.classes.Has ⟨37⟩ ∧
      third.heap.objects.Has ⟨0⟩ ∧ fourth.heap.objects.Has ⟨1⟩ ∧ fifth.heap.objects.Has ⟨0⟩ ∧
      (fifth.objectAt ⟨0⟩).owner = ⟨37⟩ ∧
      (fifth.shapeAt (fifth.classAt ⟨37⟩).shape).version = 2 ∧
      (fifth.objectAt ⟨0⟩).shape ≠ (fifth.classAt ⟨37⟩).shape := by
    decide +kernel
  obtain ⟨root, owner, ownerStill, stale, fresh, staleStill, owned, version, behind⟩ := computed
  have made := ((Image.Reaches.start.act (.register "Point" ⟨1⟩ ["x"] []) root).act
    (.instantiate ⟨37⟩) owner).act (.instantiate ⟨37⟩) ownerStill
  have written : (Action.writeField (.object ⟨0⟩) 0 (.integer 7)).Allowed third := ⟨stale, trivial⟩
  have writtenToo : (Action.writeField (.object ⟨1⟩) 0 (.double .infinity)).Allowed fourth :=
    ⟨fresh, trivial⟩
  have history : start.Reaches _ fifth := (made.act _ written).act _ writtenToo
  obtain ⟨-, objects, -⟩ := shapes_form_chains history
  obtain ⟨chain, chained, member⟩ := objects ⟨0⟩ staleStill
  rw [owned] at chained
  exact ⟨fifth, chain, history, chained, by rw [chained.length_eq, version], member, behind⟩

end Image

end MessageMachine
