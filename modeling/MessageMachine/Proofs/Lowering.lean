import MessageMachine.Proofs.Dispatch
import MessageMachine.Proofs.Plain

/-!
# Images with and without specialized control messages

A machine that specializes control messages and one that does not are compared step by step.  Their
images have the same methods and blocks, up to plain code, and the same frames.  What their send
sites remember may differ, but on both sides it is what a full lookup finds, so that no send can
tell.  Each side may also take steps of its own that no program observes: settling a control site on
one side, looking up the target of a control message on the other.
-/

namespace MessageMachine

theorem Action.Common.kept {action : Action} (common : action.Common) :
    action.removes = false := by
  cases action with
  | remove holder selector => exact common.elim
  | _ => rfl

/-- Methods without code are the same if they resemble each other. -/
theorem Method.Resembles.eq_of_bodiless {method other : Method} (alike : method.Resembles other)
    (bodiless : method.behavior.Bodiless) : other = method := by
  obtain ⟨holder, selector, behavior⟩ := method
  obtain ⟨otherHolder, otherSelector, otherBehavior⟩ := other
  obtain ⟨holders, selectors, behaviors⟩ := alike
  cases holders
  cases selectors
  cases behaviors with
  | defined _ _ => exact bodiless.elim
  | primitive operation => rfl
  | missing title => rfl

theorem Method.plain_of_bodiless {method : Method} (bodiless : method.behavior.Bodiless) :
    method.plain = method := by
  obtain ⟨holder, selector, behavior⟩ := method
  cases behavior with
  | defined _ => exact bodiless.elim
  | primitive operation => rfl
  | missing title => rfl

theorem Behavior.resembles_plain (behavior : Behavior) :
    behavior.Resembles behavior.plain := by
  cases behavior with
  | defined routine => exact .defined rfl rfl
  | primitive operation => exact .primitive operation
  | missing title => exact .missing title

namespace Image

variable {base : Nat} {image other after afterToo : Image}

/-- Whether an image is well-formed and its send sites remember what is right. -/
structure Sound (base : Nat) (image : Image) : Prop where
  formed : image.WellFormed
  attuned : image.Attuned base

theorem Sound.perform (sound : image.Sound base) {action : Action}
    (allowed : action.Allowed image) (kept : action.removes = false) :
    (action.perform image).Sound base where
  formed := Action.wellFormed_perform sound.formed allowed
  attuned := sound.attuned.perform sound.formed allowed kept

theorem Sound.note (sound : image.Sound base) (describe : Image → Event) :
    (image.note describe).Sound base := by
  rw [note_eq_perform]
  exact sound.perform trivial rfl

/-- Whether an image differs from another one in what comes of specializing control messages. -/
structure Lowers (base : Nat) (image other : Image) : Prop where
  alike : image.Resembles other
  sound : image.Sound base
  soundToo : other.Sound base
  general : other.settings.specializeControl = false
  callCount : other.sites.calls.size = image.sites.calls.size
  methods : ∀ ref, other.methodAt ref = (image.methodAt ref).plain
  blocks : ∀ ref, other.blockAt ref = (image.blockAt ref).plain
  parents : ∀ ref, (other.frameAt ref).parent = (image.frameAt ref).parent
  receivers : ∀ ref, (other.frameAt ref).receiver = (image.frameAt ref).receiver

namespace Lowers

theorem aligned (lowers : image.Lowers base other) : image.draft.Aligned other.draft where
  calls := lowers.callCount
  fields := lowers.alike.fields
  version := lowers.alike.version
  interner := lowers.alike.interner
  callSites := rfl

section Nodes

variable (lowers : image.Lowers base other)
include lowers

/-- The nodes of one image are the plain forms of the nodes of the other one. -/
theorem outlines_iff {node : OutlineNode} :
    other.Outlines node ↔ ∃ original, image.Outlines original ∧ original.plain = node := by
  have bodies : ∀ ref, Code.outlineAll (other.methodAt ref).body =
      (Code.outlineAll (image.methodAt ref).body).map OutlineNode.plain := fun ref => by
    rw [lowers.methods, Method.body_plain, Code.outlineAll_plain]
  constructor
  · rintro ⟨ref, found⟩
    rw [bodies] at found
    obtain ⟨original, member, same⟩ := List.mem_map.mp found
    exact ⟨original, ⟨ref, member⟩, same⟩
  · rintro ⟨original, ⟨ref, member⟩, rfl⟩
    refine ⟨ref, ?_⟩
    rw [bodies]
    exact List.mem_map_of_mem member

theorem sends_iff {site : CallSiteRef} {selector : Selector} :
    other.Sends site selector ↔ image.Sends site selector := by
  constructor
  · rintro (outlined | ⟨controlSite, message, outlined⟩)
    · obtain ⟨original, found, same⟩ := lowers.outlines_iff.mp outlined
      cases original with
      | send => cases same; exact Or.inl found
      | control => cases same; exact Or.inr ⟨_, _, found⟩
      | _ => cases same
    · obtain ⟨original, found, same⟩ := lowers.outlines_iff.mp outlined
      cases original <;> cases same
  · rintro (outlined | ⟨controlSite, message, outlined⟩)
    · exact Or.inl (lowers.outlines_iff.mpr ⟨_, outlined, rfl⟩)
    · exact Or.inl (lowers.outlines_iff.mpr ⟨_, outlined, rfl⟩)

theorem sendsSuper_iff {site : CallSiteRef} {origin : ClassRef} {selector : Selector} :
    other.SendsSuper site origin selector ↔ image.SendsSuper site origin selector := by
  constructor
  · intro outlined
    obtain ⟨original, found, same⟩ := lowers.outlines_iff.mp outlined
    cases original with
    | superSend => cases same; exact found
    | _ => cases same
  · intro outlined
    exact lowers.outlines_iff.mpr ⟨_, outlined, rfl⟩

theorem accessesField_iff {site : FieldSiteRef} {index : Nat} :
    other.AccessesField site index ↔ image.AccessesField site index := by
  constructor
  · rintro (outlined | outlined)
    · obtain ⟨original, found, same⟩ := lowers.outlines_iff.mp outlined
      cases original with
      | read => cases same; exact Or.inl found
      | _ => cases same
    · obtain ⟨original, found, same⟩ := lowers.outlines_iff.mp outlined
      cases original with
      | write => cases same; exact Or.inr found
      | _ => cases same
  · rintro (outlined | outlined)
    · exact Or.inl (lowers.outlines_iff.mpr ⟨_, outlined, rfl⟩)
    · exact Or.inr (lowers.outlines_iff.mpr ⟨_, outlined, rfl⟩)

/-- The same actions are allowed on both sides. -/
theorem allowed_iff {action : Action} (common : action.Common) :
    action.Allowed other ↔ action.Allowed image := by
  have known := lowers.alike.exists_iff
  cases action with
  | meet names => exact Iff.rfl
  | draw bound => exact Iff.rfl
  | leave frame => exact Iff.rfl
  | settle site => exact Iff.rfl
  | makeArray elements => simp only [Action.Allowed, known]
  | setElement ref place value => simp only [Action.Allowed, known]
  | instantiate owner => simp only [Action.Allowed, lowers.alike.classes]
  | setSlot frame kind index value => simp only [Action.Allowed, known]
  | readField receiver index => simp only [Action.Allowed, known]
  | writeField receiver index value => simp only [Action.Allowed, known]
  | readFieldAt site receiver index =>
      simp only [Action.Allowed, known, lowers.accessesField_iff]
  | writeFieldAt site receiver index value =>
      simp only [Action.Allowed, known, lowers.accessesField_iff]
  | resolve site selector receiver => simp only [Action.Allowed, known, lowers.sends_iff]
  | resolveSuper site origin selector => simp only [Action.Allowed, lowers.sendsSuper_iff]
  | _ => exact common.elim

end Nodes

/-- Steps that leave code, blocks and the places of frames alone on both sides. -/
theorem step (lowers : image.Lowers base other) (alike : after.Resembles afterToo)
    (sound : after.Sound base) (soundToo : afterToo.Sound base)
    (same : image.SameScaffold after) (sameToo : other.SameScaffold afterToo) :
    after.Lowers base afterToo where
  alike := alike
  sound := sound
  soundToo := soundToo
  general := by rw [sameToo.settings, lowers.general]
  callCount := by rw [same.callCount, sameToo.callCount, lowers.callCount]
  methods := fun ref => by
    rw [methodAt, methodAt, same.methods, sameToo.methods]
    exact lowers.methods ref
  blocks := fun ref => by
    rw [blockAt, blockAt, same.blocks, sameToo.blocks]
    exact lowers.blocks ref
  parents := fun ref => by rw [same.parents, sameToo.parents, lowers.parents]
  receivers := fun ref => by rw [same.receivers, sameToo.receivers, lowers.receivers]

theorem perform (lowers : image.Lowers base other) {action : Action} (common : action.Common)
    (allowed : action.Allowed image) :
    (action.perform image).Lowers base (action.perform other) :=
  lowers.step (lowers.alike.perform common allowed) (lowers.sound.perform allowed common.kept)
    (lowers.soundToo.perform ((lowers.allowed_iff common).mpr allowed) common.kept)
    common.sameScaffold common.sameScaffold

theorem note (lowers : image.Lowers base other) (describe describeToo : Image → Event) :
    (image.note describe).Lowers base (other.note describeToo) :=
  lowers.step (lowers.alike.note describe describeToo) (lowers.sound.note describe)
    (lowers.soundToo.note describeToo) (.note image describe) (.note other describeToo)

/-- Settling a control site, which there is on one side only, and noting that down. -/
theorem settle (lowers : image.Lowers base other) (site : ControlSiteRef)
    (describe : Image → Event) :
    ((image.generalizeControl site).note describe).Lowers base other := by
  have common : (Action.settle site).Common := trivial
  have settled : (image.generalizeControl site).Lowers base other :=
    lowers.step { lowers.alike with } (@Sound.perform base image lowers.sound (.settle site)
      trivial rfl) lowers.soundToo common.sameScaffold (.refl other)
  refine settled.step ?_ (settled.sound.note describe) lowers.soundToo (.note _ describe)
    (.refl other)
  rw [note_eq]
  exact { settled.alike with }

/-- Looking up a target on one side only. -/
theorem resolve (lowers : image.Lowers base other) {site : CallSiteRef} {selector : Selector}
    {receiver : Value} (known : receiver.Exists other) (sends : other.Sends site selector) :
    image.Lowers base (other.lookupAt site selector receiver).2 := by
  have common : (Action.resolve site selector receiver).Common := trivial
  refine lowers.step ?_ lowers.sound (@Sound.perform base other lowers.soundToo
    (.resolve site selector receiver) ⟨known, sends⟩ rfl) (.refl image) common.sameScaffold
  obtain ⟨calls, journal, -, result⟩ := other.lookupAt_eq site selector receiver
  rw [result]
  exact { lowers.alike with }

theorem addFrame (lowers : image.Lowers base other) {frame : Frame}
    (known : frame.All (·.Exists image)) :
    (image.addFrame frame).Lowers base (other.addFrame frame) := by
  have next := lowers.alike.nextFrame
  have knownToo : frame.All (·.Exists other) := {
    receiver := (lowers.alike.exists_iff _).mpr known.receiver
    arguments := fun value member => (lowers.alike.exists_iff _).mpr (known.arguments value member)
    temporaries := fun value member =>
      (lowers.alike.exists_iff _).mpr (known.temporaries value member) }
  exact {
    alike := lowers.alike.addFrame ⟨rfl, rfl, rfl, rfl⟩
    sound := @Sound.perform base image lowers.sound (.enter frame) known rfl
    soundToo := @Sound.perform base other lowers.soundToo (.enter frame) knownToo rfl
    general := lowers.general
    callCount := lowers.callCount
    methods := lowers.methods
    blocks := lowers.blocks
    parents := fun ref => by
      simp only [Image.addFrame, frameAt, Arena.get_push, next]
      split
      · rfl
      · exact lowers.parents ref
    receivers := fun ref => by
      simp only [Image.addFrame, frameAt, Arena.get_push, next]
      split
      · rfl
      · exact lowers.receivers ref }

theorem addBlock (lowers : image.Lowers base other) {closure : Closure}
    (provided : image.Provides closure.body) :
    (image.addBlock closure).Lowers base (other.addBlock closure.plain) := by
  have next := lowers.alike.nextBlock
  have providedToo : other.Provides closure.plain.body := fun node found => by
    rw [Closure.plain, Code.outlineAll_plain] at found
    obtain ⟨original, member, same⟩ := List.mem_map.mp found
    exact lowers.outlines_iff.mpr ⟨original, provided original member, same⟩
  exact {
    alike := lowers.alike.addBlock rfl rfl
    sound := @Sound.perform base image lowers.sound (.makeBlock closure) provided rfl
    soundToo := @Sound.perform base other lowers.soundToo (.makeBlock closure.plain) providedToo rfl
    general := lowers.general
    callCount := lowers.callCount
    methods := lowers.methods
    blocks := fun ref => by
      simp only [Image.addBlock, blockAt, Arena.get_push, next]
      split
      · rfl
      · exact lowers.blocks ref
    parents := lowers.parents
    receivers := lowers.receivers }

section Frames

variable (lowers : image.Lowers base other)
include lowers

theorem enclosing? (frame : FrameRef) (depth : Nat) :
    other.enclosing? frame depth = image.enclosing? frame depth := by
  induction depth generalizing frame with
  | zero => rfl
  | succ depth inductionHypothesis =>
      simp only [Image.enclosing?, lowers.parents]
      cases (image.frameAt frame).parent with
      | none => rfl
      | some parent => exact inductionHypothesis parent

theorem slot? (frame : FrameRef) (slot : Slot) :
    other.slot? frame slot = image.slot? frame slot := by
  unfold Image.slot?
  rw [lowers.enclosing?]
  cases image.enclosing? frame slot.depth with
  | none => rfl
  | some home => exact (lowers.alike.frames home).slot? slot.kind slot.index

theorem slotHome? (frame : FrameRef) (slot : Slot) :
    other.slotHome? frame slot = image.slotHome? frame slot := by
  unfold Image.slotHome?
  rw [lowers.enclosing?]
  cases image.enclosing? frame slot.depth with
  | none => rfl
  | some home => simp only [(lowers.alike.frames home).slotCount]

theorem outermost (frame : FrameRef) : other.outermost frame = image.outermost frame := by
  unfold Image.outermost
  rw [lowers.alike.frameCount]
  generalize image.heap.frames.size = steps
  induction steps generalizing frame with
  | zero => rfl
  | succ steps inductionHypothesis =>
      simp only [Image.outermostWithin, lowers.parents]
      cases (image.frameAt frame).parent with
      | none => rfl
      | some parent => exact inductionHypothesis parent

theorem blockFrame (ref : BlockRef) (arguments : List Value) :
    other.blockFrame ref arguments = image.blockFrame ref arguments := by
  simp only [Image.blockFrame, lowers.blocks, Closure.plain]
  cases (image.blockAt ref).captured with
  | none => rfl
  | some parent => simp only [lowers.receivers]

end Frames

/-- A host action that leaves code, blocks and frames alone. -/
theorem act (lowers : image.Lowers base other) {action : Action} (allowed : action.Allowed image)
    (allowedToo : action.Allowed other) (kept : action.removes = false)
    (alike : (action.perform image).Resembles (action.perform other))
    (same : image.SameScaffold (action.perform image))
    (sameToo : other.SameScaffold (action.perform other)) :
    (action.perform image).Lowers base (action.perform other) :=
  lowers.step alike (lowers.sound.perform allowed kept) (lowers.soundToo.perform allowedToo kept)
    same sameToo

theorem setGlobal (lowers : image.Lowers base other) (name : String) {value : Value}
    (known : value.Exists image) :
    (image.setGlobal name value).2.Lowers base (other.setGlobal name value).2 :=
  @act base image other lowers (.bind name value) known ((lowers.alike.exists_iff value).mpr known)
    rfl (lowers.alike.setGlobal name value) (.of_eq rfl rfl rfl rfl rfl)
    (.of_eq rfl rfl rfl rfl rfl)

theorem register (lowers : image.Lowers base other) (name : String) {superclass : ClassRef}
    (fields classFields : List String) (known : image.classes.Has superclass) :
    ((Action.register name superclass fields classFields).perform image).Lowers base
      ((Action.register name superclass fields classFields).perform other) := by
  have scaffold : ∀ image : Image, image.SameScaffold
      ((Action.register name superclass fields classFields).perform image) := fun image => by
    rw [Action.perform, registerPair_eq]
    exact .of_eq rfl rfl rfl rfl rfl
  have knownToo : other.classes.Has superclass := by
    rw [lowers.alike.classes]
    exact known
  exact lowers.act known knownToo rfl (lowers.alike.register name superclass fields classFields)
    (scaffold image) (scaffold other)

theorem adopt (lowers : image.Lowers base other) {draft draftToo : Draft}
    (aligned : draft.Aligned draftToo) (grown : image.sites.Grown draft)
    (grownToo : other.sites.Grown draftToo) :
    (image.adopt draft).Lowers base (other.adopt draftToo) where
  alike := lowers.alike.adopt aligned.fields aligned.version aligned.interner
  sound := @Sound.perform base image lowers.sound (.allocate draft) grown rfl
  soundToo := @Sound.perform base other lowers.soundToo (.allocate draftToo) grownToo rfl
  general := lowers.general
  callCount := aligned.calls
  methods := lowers.methods
  blocks := lowers.blocks
  parents := lowers.parents
  receivers := lowers.receivers

/-- A method is installed on one side, and its plain form on the other. -/
theorem install (lowers : image.Lowers base other) {holder : ClassRef} {selector : Selector}
    {behavior : Behavior} (allowed : (Action.install holder selector behavior).Allowed image)
    (allowedToo : (Action.install holder selector behavior.plain).Allowed other) :
    (image.addMethod holder selector behavior).Lowers base
      (other.addMethod holder selector behavior.plain) := by
  have alike := lowers.alike.addMethod holder selector behavior.resembles_plain
  have sound := lowers.sound.perform allowed rfl
  have soundToo := lowers.soundToo.perform allowedToo rfl
  have next : other.methods.next = image.methods.next := congrArg Ref.mk lowers.alike.methodCount
  obtain ⟨journal, result⟩ := image.addMethod_eq holder selector behavior
  obtain ⟨journalToo, resultToo⟩ := other.addMethod_eq holder selector behavior.plain
  simp only [Action.perform] at sound soundToo
  rw [result] at alike sound ⊢
  rw [resultToo] at alike soundToo ⊢
  exact {
    alike
    sound
    soundToo
    general := lowers.general
    callCount := lowers.callCount
    methods := fun ref => by
      simp only [Image.methodAt, Arena.get_push, next]
      split
      · rfl
      · exact lowers.methods ref
    blocks := lowers.blocks
    parents := lowers.parents
    receivers := lowers.receivers }

theorem installBodiless (lowers : image.Lowers base other) {holder : ClassRef}
    (selector : Selector) {behavior : Behavior} (known : image.classes.Has holder)
    (bodiless : behavior.Bodiless) :
    (image.addMethod holder selector behavior).Lowers base
      (other.addMethod holder selector behavior) := by
  have knownToo : other.classes.Has holder := by
    rw [lowers.alike.classes]
    exact known
  cases behavior with
  | defined routine => exact bodiless.elim
  | primitive operation =>
      exact lowers.install ⟨known, image.fresh_nil⟩ ⟨knownToo, other.fresh_nil⟩
  | missing title => exact lowers.install ⟨known, image.fresh_nil⟩ ⟨knownToo, other.fresh_nil⟩

theorem detach (lowers : image.Lowers base other) (ref : BlockRef) :
    (image.detach ref).2.Lowers base (other.detach ref).2 := by
  have made := @addBlock base image other lowers { image.blockAt ref with captured := none }
    (lowers.sound.formed.within.bodies ref)
  have same : { other.blockAt ref with captured := none } =
      Closure.plain { image.blockAt ref with captured := none } := by
    rw [lowers.blocks]
    rfl
  simp only [Image.detach, same]
  exact made

end Lowers

/-- Preparations of a method that end alike, with the images after them. -/
inductive Lowers.Prepares (base : Nat) (holder : ClassRef) (selector : Selector) :
    EStateM.Result Flaw Image Routine → EStateM.Result Flaw Image Routine → Prop
  | ok {routine : Routine} {after afterToo : Image} : after.Lowers base afterToo →
      after.classes.Has holder →
      (after.addMethod holder selector (.defined routine)).Lowers base
        (afterToo.addMethod holder selector (.defined routine.plain)) →
      Prepares base holder selector (.ok routine after) (.ok routine.plain afterToo)
  | error {flaw : Flaw} {after afterToo : Image} : after.Lowers base afterToo →
      Prepares base holder selector (.error flaw after) (.error flaw afterToo)

/-- The same method is prepared on both sides, up to plain code. -/
theorem Lowers.prepare (lowers : image.Lowers base other) {holder : ClassRef}
    (definition : Source.MethodDefinition) (known : image.classes.Has holder) :
    Lowers.Prepares base holder definition.selector (Image.prepareMethod holder definition image)
      (Image.prepareMethod holder definition other) := by
  have surroundings : other.surroundings holder definition.selector =
      (image.surroundings holder definition.selector).plain := by
    simp only [Image.surroundings, Surroundings.plain, lowers.alike.classAt, lowers.general]
  have knownToo : other.classes.Has holder := by
    rw [lowers.alike.classes]
    exact known
  have grown := definition.prepare_grows (image.surroundings holder definition.selector)
    image.draft
  have grownToo := definition.prepare_grows (image.surroundings holder definition.selector).plain
    other.draft
  have ended := definition.prepare_ends (image.surroundings holder definition.selector)
    lowers.aligned
  unfold Image.prepareMethod
  rw [surroundings]
  generalize prepared : definition.prepare (image.surroundings holder definition.selector)
    image.draft = result at grown ended
  generalize preparedToo : definition.prepare
    (image.surroundings holder definition.selector).plain other.draft = resultToo at grownToo ended
  cases ended with
  | error aligned => exact .error (lowers.adopt aligned grown grownToo)
  | @ok routine _ draft draftToo same aligned =>
      cases same
      have allocated := lowers.adopt aligned grown grownToo
      refine .ok allocated known (allocated.install ⟨known, ?_⟩ ⟨knownToo, ?_⟩)
      · obtain ⟨temporaries, body, codes, -, -, preparedAll, rfl⟩ :=
          Source.MethodDefinition.prepared_of_prepare prepared
        exact .of_furnishes lowers.sound.formed grown
          (fun origin found => lowers.sound.formed.within.superclasses holder origin found)
          (Source.Expression.prepareAll_furnishes body preparedAll)
      · obtain ⟨temporaries, body, codes, -, -, preparedAll, same⟩ :=
          Source.MethodDefinition.prepared_of_prepare preparedToo
        rw [Behavior.plain, same]
        refine .of_furnishes lowers.soundToo.formed grownToo (fun origin found => ?_)
          (Source.Expression.prepareAll_furnishes body preparedAll)
        refine lowers.soundToo.formed.within.superclasses holder origin ?_
        rw [lowers.alike.classAt]
        exact found

section Initial

theorem Resembles.installAll (alike : image.Resembles other) (holder : ClassRef)
    (primitives : List Primitive) :
    (primitives.foldl (fun image primitive =>
        image.addMethod holder primitive.selector (.primitive primitive)) image).Resembles
      (primitives.foldl (fun image primitive =>
        image.addMethod holder primitive.selector (.primitive primitive)) other) := by
  induction primitives generalizing image other with
  | nil => exact alike
  | cons primitive rest inductionHypothesis =>
      exact inductionHypothesis (alike.addMethod holder primitive.selector (.primitive primitive))

theorem Resembles.installPrimitives (alike : image.Resembles other) (ref : ClassRef) :
    (image.installPrimitives ref).Resembles (other.installPrimitives ref) := by
  unfold Image.installPrimitives
  rw [alike.classAt]
  exact (alike.installAll ref _).installAll _ _

theorem Resembles.installCore (alike : image.Resembles other) (refs : List ClassRef) :
    (refs.foldl (fun image ref => (image.installPrimitives ref).nameClass ref) image).Resembles
      (refs.foldl (fun image ref => (image.installPrimitives ref).nameClass ref) other) := by
  induction refs generalizing image other with
  | nil => exact alike
  | cons ref rest inductionHypothesis =>
      have installed := alike.installPrimitives ref
      have named : ((image.installPrimitives ref).nameClass ref).Resembles
          ((other.installPrimitives ref).nameClass ref) := by
        unfold Image.nameClass
        rw [installed.className]
        exact installed.setGlobal _ _
      exact inductionHypothesis named

/-- The settings make no difference to what there is at the beginning. -/
theorem resembles_initial (platform : Platform) (settings settingsToo : Settings)
    (listening : Bool) :
    (initial platform settings listening).Resembles (initial platform settingsToo listening) := by
  have founded : (founded platform settings listening).Resembles
      (founded platform settingsToo listening) := by
    rw [founded_eq platform settings, founded_eq platform settingsToo]
    exact { Resembles.refl ((founded .plain .standard false).rebased platform settings _) with }
  have equipped : (equipped platform settings listening).Resembles
      (equipped platform settingsToo listening) := by
    unfold equipped
    rw [founded.core]
    exact founded.installCore _
  rw [initial_eq, initial_eq]
  exact (((equipped.setGlobal "nil" .nil).setGlobal "true" (.boolean true)).setGlobal "false"
    (.boolean false)).note _ _

/-- Where there is no code, none can differ. -/
theorem Lowers.of_codeless (alike : image.Resembles other) (codeless : image.Codeless)
    (codelessToo : other.Codeless) (sound : image.Sound base) (soundToo : other.Sound base)
    (general : other.settings.specializeControl = false) : image.Lowers base other := by
  have frames : ∀ ref, other.frameAt ref = image.frameAt ref := fun ref => by
    rw [frameAt, frameAt, Arena.get_of_size_eq_zero codeless.frames,
      Arena.get_of_size_eq_zero codelessToo.frames]
  exact {
    alike
    sound
    soundToo
    general
    callCount := codelessToo.calls.trans codeless.calls.symm
    methods := fun ref => by
      rw [Method.plain_of_bodiless (codeless.methods ref)]
      exact (alike.methods ref).eq_of_bodiless (codeless.methods ref)
    blocks := fun ref => by
      rw [blockAt, blockAt, Arena.get_of_size_eq_zero codeless.blocks,
        Arena.get_of_size_eq_zero codelessToo.blocks]
      rfl
    parents := fun ref => congrArg Frame.parent (frames ref)
    receivers := fun ref => congrArg Frame.receiver (frames ref) }

end Initial

end Image

end MessageMachine
