import MessageMachine.Proofs.Control
import MessageMachine.Proofs.Nesting

/-!
# The size of inline caches

Machines whose send sites remember different numbers of targets are run side by side.  One of them
may have given up on a site that the other one still answers from, but whatever a site answers is
what a full lookup finds.  Nothing else in an image depends on the size, so that the two images stay
the same apart from what the sites remember and from the journal, where forgetting is noted.
-/

namespace MessageMachine

/-- What depends on the size of inline caches: the size itself, what send sites remember, and the
journal. -/
structure Memory where
  size : Nat
  calls : Arena .callSites DispatchCache
  journal : Journal

/-- The sites with other memories of targets. -/
def Sites.withCalls (sites : Sites) (calls : Arena .callSites DispatchCache) : Sites :=
  { sites with calls }

/-- The draft with other memories of targets. -/
def Draft.withCalls (draft : Draft) (calls : Arena .callSites DispatchCache) : Draft :=
  { draft with calls }

namespace Preparing

variable {Flaw Answer Next : Type}

/-- Preparations that end with the same answer or the same flaw, and with drafts of which only
the memories of send sites differ. -/
inductive EndsAlike :
    EStateM.Result Flaw Draft Answer → EStateM.Result Flaw Draft Answer → Prop
  | ok {answer : Answer} {after : Draft} {calls : Arena .callSites DispatchCache} :
      calls.size = after.calls.size →
      EndsAlike (.ok answer after) (.ok answer (after.withCalls calls))
  | error {flaw : Flaw} {after : Draft} {calls : Arena .callSites DispatchCache} :
      calls.size = after.calls.size →
      EndsAlike (.error flaw after) (.error flaw (after.withCalls calls))

/-- Whether a preparation pays no attention to what send sites remember. -/
def Heedless (preparation : EStateM Flaw Draft Answer) : Prop :=
  ∀ (draft : Draft) (calls : Arena .callSites DispatchCache), calls.size = draft.calls.size →
    EndsAlike (preparation draft) (preparation (draft.withCalls calls))

namespace Heedless

theorem pure (answer : Answer) : Heedless (Pure.pure answer : EStateM Flaw Draft Answer) :=
  fun _ _ count => .ok count

theorem throw (flaw : Flaw) : Heedless (MonadExcept.throw flaw : EStateM Flaw Draft Answer) :=
  fun _ _ count => .error count

theorem throw_bind (flaw : Flaw) (next : Answer → EStateM Flaw Draft Next) :
    Heedless ((MonadExcept.throw flaw : EStateM Flaw Draft Answer) >>= next) :=
  fun _ _ count => .error count

theorem bind {preparation : EStateM Flaw Draft Answer} {next : Answer → EStateM Flaw Draft Next}
    (heedless : Heedless preparation) (continued : ∀ answer, Heedless (next answer)) :
    Heedless (preparation >>= next) := by
  intro draft calls count
  have ended := heedless draft calls count
  simp only [Bind.bind, EStateM.bind]
  generalize preparation draft = result at ended
  generalize preparation (draft.withCalls calls) = resultToo at ended
  cases ended with
  | ok count => exact continued _ _ _ count
  | error count => exact .error count

theorem callSite : Heedless Preparing.callSite := by
  intro draft calls count
  have same : (draft.withCalls calls).calls.next = draft.calls.next := congrArg Ref.mk count
  change EndsAlike (.ok draft.calls.next draft.addCall)
    (.ok (draft.withCalls calls).calls.next (draft.withCalls calls).addCall)
  rw [Draft.addCall, Draft.addCall, same]
  exact .ok (by simp only [Sites.addCall, Arena.size_push, Draft.withCalls, count])

/-- What only meets names pays no attention to anything. -/
theorem of_naming {preparation : Preparing Answer} (naming : preparation.Naming) :
    Heedless preparation := by
  intro draft calls count
  cases naming with
  | ok names answer comes =>
      rw [comes, comes]
      exact .ok count
  | error names flaw comes =>
      rw [comes, comes]
      exact .error count

theorem fieldSite : Heedless Preparing.fieldSite :=
  fun _ _ count => .ok count

theorem controlSite : Heedless Preparing.controlSite :=
  fun _ _ count => .ok count

theorem check (surroundings : Surroundings) (scopes : List Scope) (address : Source.Variable) :
    Heedless (address.check surroundings scopes) := by
  unfold Source.Variable.check
  cases address.flaw? surroundings scopes with
  | none => exact .pure ()
  | some flaw => exact .throw flaw

end Heedless

end Preparing

namespace Source

namespace Expression

open Preparing

mutual

theorem prepare_heedless (surroundings : Surroundings) (scopes : List Scope)
    (expression : Expression) : Heedless (expression.prepare surroundings scopes) := by
  cases expression with
  | self => exact .pure _
  | global name => exact .bind (.of_naming (.meet name)) fun _ => .pure _
  | read address =>
      refine .bind (.check surroundings scopes address) fun _ => ?_
      cases address with
      | slot slot => exact .pure _
      | field index => exact .bind .fieldSite fun _ => .pure _
  | write address value =>
      refine .bind (.check surroundings scopes address) fun _ => ?_
      refine .bind (prepare_heedless surroundings scopes value) fun _ => ?_
      cases address with
      | slot slot => exact .pure _
      | field index => exact .bind .fieldSite fun _ => .pure _
  | send receiver selector operands =>
      rw [prepare]
      split
      · exact .throw_bind _ _
      · refine .bind (prepare_heedless surroundings scopes receiver) fun _ => ?_
        refine .bind (prepareAll_heedless surroundings scopes operands) fun _ => ?_
        refine .bind (.of_naming (.meet selector)) fun _ => ?_
        refine .bind .callSite fun _ => ?_
        split
        · exact .bind .controlSite fun _ => .pure _
        · exact .pure _
  | superSend selector operands =>
      rw [prepare]
      split
      · exact .throw _
      · refine .bind (prepareAll_heedless surroundings scopes operands) fun _ => ?_
        exact .bind (.of_naming (.meet selector)) fun _ => .bind .callSite fun _ => .pure _
  | answer value span =>
      exact .bind (prepare_heedless surroundings scopes value) fun _ => .pure _
  | literal value =>
      exact .bind (.of_naming (Literal.prepare_naming value)) fun _ => .pure _
  | block parameters temporaries body =>
      rw [prepare]
      split
      · exact .throw_bind _ _
      · exact .bind (prepareAll_heedless surroundings _ body) fun _ => .pure _

theorem prepareAll_heedless (surroundings : Surroundings) (scopes : List Scope)
    (expressions : List Expression) : Heedless (prepareAll surroundings scopes expressions) := by
  cases expressions with
  | nil => exact .pure _
  | cons expression rest =>
      refine .bind (prepare_heedless surroundings scopes expression) fun _ => ?_
      exact .bind (prepareAll_heedless surroundings scopes rest) fun _ => .pure _

end

end Expression

/-- What send sites remember makes no difference to the preparation of a method. -/
theorem MethodDefinition.prepare_heedless (definition : MethodDefinition)
    (surroundings : Surroundings) : Preparing.Heedless (definition.prepare surroundings) := by
  unfold prepare
  cases definition.body with
  | primitive => exact .throw _
  | expressions temporaries body =>
      dsimp only
      split
      · exact .throw_bind _ _
      · intro draft calls count
        have ended := Expression.prepareAll_heedless surroundings
          [{ parameters := definition.parameters, temporaries }] body draft calls count
        simp only [Bind.bind, EStateM.bind, EStateM.adaptExcept]
        generalize Expression.prepareAll surroundings
          [{ parameters := definition.parameters, temporaries }] body draft = result at ended
        generalize Expression.prepareAll surroundings
          [{ parameters := definition.parameters, temporaries }] body (draft.withCalls calls) =
            resultToo at ended
        cases ended with
        | error count => exact .error count
        | ok count => exact .ok count

end Source

namespace Image

/-- The image with another memory. -/
def withMemory (image : Image) (memory : Memory) : Image :=
  { image with
    settings := { image.settings with cacheSize := memory.size }
    sites := image.sites.withCalls memory.calls
    journal := memory.journal }

/-- Whether two images are the same apart from what depends on the size of inline caches.  They have
as many send sites. -/
def SameBesidesMemory (image other : Image) : Prop :=
  ∃ memory : Memory, memory.calls.size = image.sites.calls.size ∧ other = image.withMemory memory

namespace SameBesidesMemory

variable {image other : Image}

theorem resembles (same : image.SameBesidesMemory other) : image.Resembles other := by
  obtain ⟨memory, -, rfl⟩ := same
  exact { Resembles.refl image with }

/-- A question that is answered without looking at the memory is answered alike. -/
theorem sees {Answer : Type} (same : image.SameBesidesMemory other) (question : Image → Answer)
    (answered : ∀ memory, question (image.withMemory memory) = question image) :
    question other = question image := by
  obtain ⟨memory, -, rfl⟩ := same
  exact answered memory

theorem samePlaces (same : image.SameBesidesMemory other) : image.SamePlaces other :=
  fun ref => same.sees (fun image => (image.frameAt ref).parent) fun _ => rfl

theorem slot? (same : image.SameBesidesMemory other) (frame : FrameRef) (slot : Slot) :
    other.slot? frame slot = image.slot? frame slot := by
  unfold Image.slot?
  rw [same.samePlaces.enclosing?]
  cases image.enclosing? frame slot.depth with
  | none => rfl
  | some home => exact same.sees (fun image => (image.frameAt home).slot? _ _) fun _ => rfl

theorem slotHome? (same : image.SameBesidesMemory other) (frame : FrameRef) (slot : Slot) :
    other.slotHome? frame slot = image.slotHome? frame slot := by
  unfold Image.slotHome?
  rw [same.samePlaces.enclosing?]
  cases image.enclosing? frame slot.depth with
  | none => rfl
  | some home => simp only [same.sees (·.frameAt home) fun _ => rfl]

theorem outermost (same : image.SameBesidesMemory other) (frame : FrameRef) :
    other.outermost frame = image.outermost frame :=
  same.samePlaces.outermost (same.sees (·.heap.frames.size) fun _ => rfl) frame

/-- Where fields are accessed, no memory is. -/
theorem of_access {Answer : Type} {good : Value → Prop} {memory : Memory}
    (access : Image → Answer × Image) (count : memory.calls.size = image.sites.calls.size)
    (tended : Tended good image (access image).2)
    (accessed : AlikeResults (image.withMemory memory).rest (access image)
      (access (image.withMemory memory))) :
    (access image).2.SameBesidesMemory (access (image.withMemory memory)).2 := by
  obtain ⟨-, journal, same⟩ := accessed
  refine ⟨{ memory with journal }, count.trans (congrArg Arena.size tended.calls).symm, ?_⟩
  rw [same]
  simp only [withRest, rest, withMemory, Sites.withCalls, ← tended.settings, ← tended.methods,
    ← tended.blocks, ← tended.frames, ← tended.controls]

/-- Every action but the allocation of sites keeps two images the same. -/
theorem perform (same : image.SameBesidesMemory other) {action : Action}
    (settled : ∀ draft, action ≠ .allocate draft) :
    (action.perform image).SameBesidesMemory (action.perform other) := by
  have anything : ∀ value : Value, value.IsPlain → value.IsNormal → True :=
    fun _ _ _ => trivial
  obtain ⟨memory, count, rfl⟩ := same
  cases action with
  | noteDown journal => exact ⟨{ memory with journal }, count, rfl⟩
  | readField receiver index =>
      exact of_access (·.readField receiver index) count
        (readField_tended anything image receiver index) (image.readField_withRest _ receiver index)
  | writeField receiver index value =>
      exact of_access (·.writeField receiver index value) count
        (writeField_tended anything image receiver index trivial)
        (image.writeField_withRest _ receiver index value)
  | readFieldAt site receiver index =>
      exact of_access (·.readFieldAt site receiver index) count
        (readFieldAt_tended anything image site receiver index)
        (image.readFieldAt_withRest _ site receiver index)
  | writeFieldAt site receiver index value =>
      exact of_access (·.writeFieldAt site receiver index value) count
        (writeFieldAt_tended anything image site receiver index trivial)
        (image.writeFieldAt_withRest _ site receiver index value)
  | resolve site selector receiver =>
      obtain ⟨calls, journal, kept, result⟩ := image.lookupAt_eq site selector receiver
      obtain ⟨callsToo, journalToo, keptToo, resultToo⟩ :=
        (image.withMemory memory).lookupAt_eq site selector receiver
      rw [Action.perform, Action.perform, result, resultToo]
      exact ⟨{ memory with calls := callsToo, journal := journalToo },
        (keptToo.trans count).trans kept.symm, rfl⟩
  | resolveSuper site origin selector =>
      obtain ⟨calls, kept, result⟩ := image.lookupSuperAt_eq site origin selector
      obtain ⟨callsToo, keptToo, resultToo⟩ :=
        (image.withMemory memory).lookupSuperAt_eq site origin selector
      rw [Action.perform, Action.perform, result, resultToo]
      exact ⟨{ memory with calls := callsToo }, (keptToo.trans count).trans kept.symm, rfl⟩
  | install holder selector behavior =>
      obtain ⟨journal, result⟩ := image.addMethod_eq holder selector behavior
      obtain ⟨journalToo, resultToo⟩ :=
        (image.withMemory memory).addMethod_eq holder selector behavior
      rw [Action.perform, Action.perform, result, resultToo]
      exact ⟨{ memory with journal := journalToo }, count, rfl⟩
  | allocate draft => exact absurd rfl (settled draft)
  | _ => exact ⟨memory, count, rfl⟩

theorem note (same : image.SameBesidesMemory other) (describe : Image → Event) :
    (image.note describe).SameBesidesMemory (other.note describe) := by
  obtain ⟨memory, count, rfl⟩ := same
  rw [note_eq image, note_eq (image.withMemory memory)]
  exact ⟨{ memory with journal := ((image.withMemory memory).note describe).journal }, count, rfl⟩

/-- The same actions are allowed.  For code to be installed its sites have to be unused, which is
another matter. -/
theorem allowed_iff (same : image.SameBesidesMemory other) {action : Action}
    (settled : ∀ draft, action ≠ .allocate draft) (still : action.installs = false) :
    action.Allowed other ↔ action.Allowed image := by
  obtain ⟨memory, -, rfl⟩ := same
  cases action with
  | allocate draft => exact absurd rfl (settled draft)
  | install holder selector behavior => cases still
  | _ => exact Iff.rfl

end SameBesidesMemory

/-- Whether two images differ in what depends on the size of inline caches only, where what the send
sites remember is right on both sides. -/
structure Resizes (base : Nat) (image other : Image) : Prop where
  same : image.SameBesidesMemory other
  sound : image.Sound base
  soundToo : other.Sound base

namespace Resizes

variable {base : Nat} {image other : Image}

/-- Both sides take the same action. -/
theorem act (resizes : image.Resizes base other) {action : Action}
    (settled : ∀ draft, action ≠ .allocate draft) (allowed : action.Allowed image)
    (allowedToo : action.Allowed other) (kept : action.removes = false) :
    (action.perform image).Resizes base (action.perform other) where
  same := resizes.same.perform settled
  sound := resizes.sound.perform allowed kept
  soundToo := resizes.soundToo.perform allowedToo kept

/-- Both sides take the same action, which installs nothing. -/
theorem perform (resizes : image.Resizes base other) {action : Action}
    (settled : ∀ draft, action ≠ .allocate draft) (allowed : action.Allowed image)
    (kept : action.removes = false) (still : action.installs = false) :
    (action.perform image).Resizes base (action.perform other) :=
  resizes.act settled allowed ((resizes.same.allowed_iff settled still).mpr allowed) kept

theorem note (resizes : image.Resizes base other) (describe : Image → Event) :
    (image.note describe).Resizes base (other.note describe) where
  same := resizes.same.note describe
  sound := resizes.sound.note describe
  soundToo := resizes.soundToo.note describe

/-- Whatever the sites remember, both sides find what a full lookup finds. -/
theorem lookupAt (resizes : image.Resizes base other)
    (few : image.methods.size < base + UInt32.size) {site : CallSiteRef} {selector : Selector}
    (sends : image.Sends site selector) (receiver : Value) :
    (other.lookupAt site selector receiver).1 = (image.lookupAt site selector receiver).1 := by
  obtain ⟨memory, -, rfl⟩ := resizes.same
  rw [resizes.sound.attuned.lookupAt few sends, resizes.soundToo.attuned.lookupAt few sends,
    resizes.same.resembles.lookupFor]

theorem lookupSuperAt (resizes : image.Resizes base other)
    (few : image.methods.size < base + UInt32.size) {site : CallSiteRef} {origin : ClassRef}
    {selector : Selector} (sends : image.SendsSuper site origin selector) :
    (other.lookupSuperAt site origin selector).1 =
      (image.lookupSuperAt site origin selector).1 := by
  obtain ⟨memory, -, rfl⟩ := resizes.same
  rw [resizes.sound.attuned.lookupSuperAt few sends,
    resizes.soundToo.attuned.lookupSuperAt few sends, resizes.same.resembles.lookup]

/-- Both sides prepare the same routine, or find the same flaw. -/
inductive Prepares (base : Nat) (holder : ClassRef) (selector : Selector) :
    EStateM.Result Flaw Image Routine → EStateM.Result Flaw Image Routine → Prop
  | ok {routine : Routine} {after afterToo : Image} : after.Resizes base afterToo →
      after.classes.Has holder →
      (after.addMethod holder selector (.defined routine)).Resizes base
        (afterToo.addMethod holder selector (.defined routine)) →
      Prepares base holder selector (.ok routine after) (.ok routine afterToo)
  | error {flaw : Flaw} {after afterToo : Image} : after.Resizes base afterToo →
      Prepares base holder selector (.error flaw after) (.error flaw afterToo)

/-- Both sides take over what a preparation has added. -/
theorem adopt {memory : Memory} {draft : Draft} {calls : Arena .callSites DispatchCache}
    (resizes : image.Resizes base (image.withMemory memory)) (count : calls.size = draft.calls.size)
    (grown : image.sites.Grown draft)
    (grownToo : (image.sites.withCalls memory.calls).Grown (draft.withCalls calls)) :
    (image.adopt draft).Resizes base
      ((image.withMemory memory).adopt (draft.withCalls calls)) where
  same := ⟨{ memory with calls }, count, rfl⟩
  sound := @Sound.perform base image resizes.sound (.allocate draft) grown rfl
  soundToo := @Sound.perform base (image.withMemory memory) resizes.soundToo
    (.allocate (draft.withCalls calls)) grownToo rfl

/-- A routine that was prepared may be installed. -/
theorem fresh_of_prepare (formed : image.WellFormed) {holder : ClassRef}
    {definition : Source.MethodDefinition} {routine : Routine} {draft : Draft}
    (prepared : definition.prepare (image.surroundings holder definition.selector) image.draft =
      .ok routine draft) : (image.adopt draft).Fresh routine.body := by
  have grown := definition.prepare_grows (image.surroundings holder definition.selector)
    image.draft
  rw [prepared] at grown
  obtain ⟨temporaries, body, codes, -, -, preparedAll, rfl⟩ :=
    Source.MethodDefinition.prepared_of_prepare prepared
  exact .of_furnishes formed grown
    (fun origin found => formed.within.superclasses holder origin found)
    (Source.Expression.prepareAll_furnishes body preparedAll)

theorem prepare (resizes : image.Resizes base other) {holder : ClassRef}
    (definition : Source.MethodDefinition) (known : image.classes.Has holder) :
    Prepares base holder definition.selector (Image.prepareMethod holder definition image)
      (Image.prepareMethod holder definition other) := by
  have fresh := @fresh_of_prepare image resizes.sound.formed holder definition
  have freshToo := @fresh_of_prepare other resizes.soundToo.formed holder definition
  obtain ⟨memory, count, rfl⟩ := resizes.same
  have surroundings : (image.withMemory memory).surroundings holder definition.selector =
      image.surroundings holder definition.selector := rfl
  have drafts : (image.withMemory memory).draft = image.draft.withCalls memory.calls := rfl
  have ended := definition.prepare_heedless (image.surroundings holder definition.selector)
    image.draft memory.calls count
  have grown := definition.prepare_grows (image.surroundings holder definition.selector)
    image.draft
  have grownToo := definition.prepare_grows (image.surroundings holder definition.selector)
    (image.draft.withCalls memory.calls)
  unfold Image.prepareMethod
  rw [surroundings, drafts]
  rw [surroundings, drafts] at freshToo
  generalize prepared : definition.prepare (image.surroundings holder definition.selector)
    image.draft = result at ended grown fresh
  generalize preparedToo : definition.prepare (image.surroundings holder definition.selector)
    (image.draft.withCalls memory.calls) = resultToo at ended grownToo freshToo
  cases ended with
  | error countAfter => exact .error (resizes.adopt countAfter grown grownToo)
  | ok countAfter =>
      have allocated := resizes.adopt countAfter grown grownToo
      refine .ok allocated known ?_
      exact @act base _ _ allocated (.install holder definition.selector (.defined _)) nofun
        ⟨known, fresh rfl⟩ ⟨known, freshToo rfl⟩ rfl

end Resizes

/-- Images without code are the same if they resemble each other. -/
theorem SameBesidesMemory.of_codeless {image other : Image} (alike : image.Resembles other)
    (codeless : image.Codeless) (codelessToo : other.Codeless)
    (same : other.settings.specializeControl = image.settings.specializeControl) :
    image.SameBesidesMemory other := by
  have methods : other.methods = image.methods := Arena.ext_get alike.methodCount fun ref =>
    (alike.methods ref).eq_of_bodiless (codeless.methods ref)
  have blocks : other.heap.blocks = image.heap.blocks :=
    Arena.ext_empty codelessToo.blocks codeless.blocks
  have frames : other.heap.frames = image.heap.frames :=
    Arena.ext_empty codelessToo.frames codeless.frames
  have controls : other.sites.controls = image.sites.controls :=
    Arena.ext_empty codelessToo.controls codeless.controls
  refine ⟨⟨other.settings.cacheSize, other.sites.calls, other.journal⟩,
    codelessToo.calls.trans codeless.calls.symm, ?_⟩
  rw [alike.eq_withRest]
  simp only [withMemory, withRest, rest, Sites.withCalls, methods, blocks, frames, controls, ← same]

/-- What there is at the beginning does not depend on the size of inline caches. -/
theorem resizes_initial (platform : Platform) (settings : Settings) (size sizeToo : Nat)
    (listening : Bool) :
    (initial platform (settings.withCacheSize size) listening).Resizes
      (initial platform (settings.withCacheSize size) listening).methods.size
      (initial platform (settings.withCacheSize sizeToo) listening) := by
  have alike := resembles_initial platform (settings.withCacheSize size)
    (settings.withCacheSize sizeToo) listening
  have attuned := attuned_initial platform (settings.withCacheSize sizeToo) listening
  rw [alike.methodCount] at attuned
  exact {
    same := .of_codeless alike (codeless_initial _ _ listening) (codeless_initial _ _ listening)
      (by rw [settings_initial, settings_initial]; rfl)
    sound := ⟨wellFormed_initial _ _ listening, attuned_initial _ _ listening⟩
    soundToo := ⟨wellFormed_initial _ _ listening, attuned⟩ }

end Image

namespace Correspondence

/-- Two machines with inline caches of different sizes. -/
def resizing (base : Nat) : Correspondence where
  Stage := { images : Image × Image // images.1.Resizes base images.2 ∧
    images.1.methods.size < base + UInt32.size }
  first stage := stage.val.1
  second stage := stage.val.2
  Later stage after := stage.val.1.Extends after.val.1
  Fits stage _ code other := other = code ∧ ∀ node ∈ code.outline, stage.val.1.Outlines node
  lenient := False

namespace Resizing

variable {base : Nat} {stage : (resizing base).Stage}

/-- Both machines take an action that evaluation takes. -/
theorem reached {action : Action} (internal : action.Internal)
    (allowed : action.Allowed stage.val.1) :
    ∃ after, (resizing base).Reached stage (action.perform stage.val.1)
      (action.perform stage.val.2) after := by
  have settled : ∀ draft, action ≠ .allocate draft := by
    rintro draft rfl
    exact internal
  have kept : action.removes = false := by
    cases action with
    | remove holder selector => exact internal.elim
    | _ => rfl
  have still : action.installs = false := by
    cases action with
    | install holder selector behavior => exact internal.elim
    | _ => rfl
  have resizes := stage.property.1.perform settled allowed kept still
  have few : (action.perform stage.val.1).methods.size < base + UInt32.size := by
    rw [Action.methods_of_not_installs stage.val.1 still]
    exact stage.property.2
  exact ⟨⟨(_, _), resizes, few⟩, Action.extends_perform allowed, rfl, rfl⟩

theorem concurs (stage : (resizing base).Stage) (frame : FrameRef) :
    (resizing base).Concurs stage frame :=
  have same := stage.property.1.same
  { fits := fun provided => ⟨rfl, provided⟩
    receiver := same.sees (fun image => (image.frameAt frame).receiver) fun _ => rfl
    slot := fun slot => same.slot? frame slot
    slotHome := fun slot => same.slotHome? frame slot
    outermost := same.outermost frame
    control := fun site => same.sees (·.sites.controls.get site) fun _ => rfl
    block := fun closure provided => @reached base stage (.makeBlock closure) trivial provided }

theorem enterMethod {ref : MethodRef} {routine other : Routine} {receiver : Value}
    {operands : List Value} (first : (stage.val.1.methodAt ref).behavior = .defined routine)
    (second : (stage.val.2.methodAt ref).behavior = .defined other)
    (known : receiver.Exists stage.val.1) (allKnown : Value.AllExist stage.val.1 operands) :
    ∃ after, (resizing base).Reached stage
      (stage.val.1.addFrame (.ofMethod ref receiver operands routine.temporaries))
      (stage.val.2.addFrame (.ofMethod ref receiver operands other.temporaries)) after ∧
      List.Forall₂ ((resizing base).Fits after stage.val.1.heap.frames.next) routine.body
        other.body := by
  have same : other = routine := by
    rw [stage.property.1.same.sees (·.methodAt ref) fun _ => rfl] at second
    exact Behavior.defined.inj (second.symm.trans first)
  subst same
  have present : ∀ node ∈ Code.outlineAll other.body, stage.val.1.Outlines node :=
    fun node found => ⟨ref, by simpa only [Method.body, first] using found⟩
  obtain ⟨after, taken⟩ := @reached base stage (.enter _) trivial
    (Frame.all_ofMethod trivial ref known allKnown other.temporaries)
  exact ⟨after, taken, (concurs after _).fitAll fun node found =>
    (present node found).mono taken.later⟩

theorem enterBlock {ref : BlockRef} {arguments : List Value}
    (allKnown : Value.AllExist stage.val.1 arguments) :
    ∃ after, (resizing base).Reached stage
      (stage.val.1.addFrame (stage.val.1.blockFrame ref arguments))
      (stage.val.2.addFrame (stage.val.2.blockFrame ref arguments)) after ∧
      List.Forall₂ ((resizing base).Fits after stage.val.1.heap.frames.next)
        (stage.val.1.blockAt ref).body (stage.val.2.blockAt ref).body := by
  have formed := stage.property.1.sound.formed
  obtain ⟨after, taken⟩ := @reached base stage (.enter _) trivial
    (formed.all_blockFrame ref allKnown)
  rw [stage.property.1.same.sees (·.blockFrame ref arguments) fun _ => rfl,
    stage.property.1.same.sees (·.blockAt ref) fun _ => rfl]
  exact ⟨after, taken, (concurs after _).fitAll fun node found =>
    (formed.within.bodies ref node found).mono taken.later⟩

theorem laws : (resizing base).Laws where
  refl := fun _ => .refl _
  trans := fun extended later => extended.trans later
  alike := fun stage => stage.property.1.same.resembles
  formed := fun stage => stage.property.1.sound.formed
  extended := fun later => later
  carry := fun later ⟨same, provided⟩ =>
    ⟨same, fun node found => (provided node found).mono later⟩
  paired := fun fits => by
    obtain ⟨rfl, provided⟩ := fits
    exact (concurs _ _).paired provided
  act := fun _ _ common allowed => reached common.internal allowed
  noted := fun stage describe => by
    have resizes := stage.property.1.note describe
    have few := stage.property.2
    simp only [resizing]
    rw [Image.note_eq stage.val.1] at resizes ⊢
    exact ⟨⟨(_, _), resizes, few⟩, { Image.Extends.refl stage.val.1 with }, rfl, rfl⟩
  resolve := fun stage _ _ receiver _ sends =>
    stage.property.1.lookupAt stage.property.2 sends receiver
  resolveSuper := fun stage _ _ _ sends =>
    stage.property.1.lookupSuperAt stage.property.2 sends
  enterMethod := fun _ _ _ _ _ _ first second known allKnown =>
    enterMethod first second known allKnown
  enterBlock := fun _ _ _ _ allKnown => enterBlock allKnown

/-- The size makes no difference to what an evaluation takes, so that one budget does for both. -/
theorem partners (budget : Nat) : (resizing base).Partners (.ofBudget budget) (.ofBudget budget) :=
  (interpreters_of_unmixed laws (fun fits => Code.noConfusion fits.1)
    (fun fits => Code.noConfusion fits.1) budget).toPartners

/-- The two machines serving a host. -/
def hosting (base : Nat) : Hosting where
  Link := Image.Resizes base
  Ready image := image.methods.size < base + UInt32.size
  Similar routine other := other = routine
  removes := False

theorem hosting_laws : (hosting base).Laws (resizing base) where
  alike := fun link => link.same.resembles
  formed := fun link => link.sound.formed
  staged := fun link ready => ⟨⟨(_, _), link, ready⟩, rfl, rfl⟩
  linked := @fun _ after _ _ => after.property.1
  noted := fun link describe => link.note describe
  bound := fun link name value known =>
    @Image.Resizes.perform base _ _ link (.bind name value) nofun known rfl rfl
  registered := fun link name _ fields classFields known =>
    link.perform nofun (by exact known) rfl rfl
  installed := fun {image other} link holder selector behavior known bodiless => by
    have knownToo : other.classes.Has holder := by
      rw [link.same.resembles.classes]
      exact known
    refine @Image.Resizes.act base image other link (.install holder selector behavior) nofun
      ⟨known, ?_⟩ ⟨knownToo, ?_⟩ rfl <;>
    · rw [Method.body_of_bodiless bodiless]
      exact Image.fresh_nil _
  prepared := fun {image other} link holder definition known => by
    have prepared := link.prepare definition known
    generalize Image.prepareMethod holder definition image = result at prepared ⊢
    generalize Image.prepareMethod holder definition other = resultToo at prepared ⊢
    cases prepared with
    | ok resizes present installed => exact .ok rfl resizes present installed
    | error resizes => exact .error resizes
  detached := fun {image other} link block _ => by
    have made := @Image.Resizes.perform base image other link
      (.makeBlock { image.blockAt block with captured := none }) nofun
      (link.sound.formed.within.bodies block) rfl rfl
    simp only [Image.detach, link.same.sees (·.blockAt block) fun _ => rfl]
    exact made
  removed := False.elim

end Resizing

/-- Responses that agree are the same if routines are. -/
theorem Hosting.eq_of_answers {H : Hosting}
    (similar : ∀ routine other, H.Similar routine other → other = routine)
    {responses others : List Response} (agreed : List.Forall₂ H.Answers responses others) :
    others = responses := by
  induction agreed with
  | nil => rfl
  | cons first _ inductionHypothesis =>
      rw [inductionHypothesis]
      rcases first with ⟨-, rfl⟩ | ⟨routine, routineToo, rfl, rfl, alike⟩
      · rfl
      · rw [similar routine routineToo alike]

end Correspondence

/-- Whether a session mentions existing things only, takes no methods out of dictionaries, and comes
with fewer installations than there are words. -/
def Request.Orderly (machine : Machine) (requests : List Request) (start : Image) : Prop :=
  Request.Throughout machine (fun image request => request.Admissible image ∧
    request.removes = false ∧ image.methods.size < start.methods.size + UInt32.size) requests start

instance (machine : Machine) (requests : List Request) (start : Image) :
    Decidable (Request.Orderly machine requests start) :=
  inferInstanceAs (Decidable (Request.Throughout machine _ requests start))

theorem Request.Orderly.serves {machine : Machine} {requests : List Request} {start : Image}
    (orderly : Request.Orderly machine requests start) :
    Request.Throughout machine
      (Correspondence.Resizing.hosting start.methods.size).Serves requests start :=
  orderly.imp fun _ _ ⟨admissible, kept, few⟩ =>
    ⟨admissible, fun removes => Bool.false_ne_true (kept.symm.trans removes), few⟩

/-- The size of inline caches cannot be observed.  Sessions on machines that differ in nothing else,
and that draw the same random numbers and find things at the same addresses because they are on one
platform, get the same responses within every budget, whether these are values, failures with their
backtraces or exhausted budgets, and leave the same image apart from what send sites remember and
the journal. -/
theorem cache_size_unobservable {platform : Platform} {settings : Settings} {listening : Bool}
    {size sizeToo budget : Nat} {requests : List Request}
    (orderly : Request.Orderly (.ofBudget budget) requests
      (.initial platform (settings.withCacheSize size) listening)) :
    let outcome := Request.serveAll (.ofBudget budget) requests
      (.initial platform (settings.withCacheSize size) listening)
    let other := Request.serveAll (.ofBudget budget) requests
      (.initial platform (settings.withCacheSize sizeToo) listening)
    other.1 = outcome.1 ∧ outcome.2.SameBesidesMemory other.2 := by
  obtain ⟨responses, final⟩ := Correspondence.Hosting.serveAll_served
    Correspondence.Resizing.hosting_laws Correspondence.Resizing.laws
    (Correspondence.Resizing.partners budget) requests
    (Image.resizes_initial platform settings size sizeToo listening) orderly.serves False.elim
  exact ⟨Correspondence.Hosting.eq_of_answers (fun _ _ same => same) responses, final.same⟩

/-- A session in which one send has receivers of two kinds, and fails for a third one.  Between the
sends a method is installed that answers in place of an operation. -/
def mixedSession : List Request :=
  let argument := Source.Expression.read (.slot { kind := .argument, depth := 0, index := 0 })
  [.defineClass {
      name := "Asker"
      superclass := none
      fields := []
      methods := [
        { selector := "ask:", parameters := 1, body := .expressions 0
            [.answer (.send argument "asString" []) .absent] }]
      classFields := []
      classMethods := [] },
    .instantiate ⟨37⟩,
    .send "ask:" (.object ⟨0⟩) [.integer 1],
    .send "ask:" (.object ⟨0⟩) [.symbol "one"],
    .send "ask:" (.object ⟨0⟩) [.object ⟨0⟩],
    .installMethod ⟨37⟩ {
      selector := "asString"
      parameters := 0
      body := .expressions 0 [.answer (.literal (.string "asker")) .absent] },
    .send "ask:" (.object ⟨0⟩) [.object ⟨0⟩],
    .send "ask:" (.object ⟨0⟩) [.integer 2]]

/-- What comes of the session with inline caches of a given size. -/
def mixedOutcome (size : Nat) : List Response × Image :=
  Request.serveAll (.ofBudget 4) mixedSession
    (.initial .plain (Settings.standard.withCacheSize size) false)

/-- In the session one machine gives up on its send site, where the other one keeps a chain.  The
responses are the same. -/
theorem cache_size_unobservable_mixed :
    Request.Orderly (.ofBudget 4) mixedSession
        (.initial .plain (Settings.standard.withCacheSize 1) false) ∧
      ((mixedOutcome 1).2.sites.calls.get ⟨0⟩).state = .megamorphic ∧
      ((mixedOutcome 3).2.sites.calls.get ⟨0⟩).state = .polymorphic ∧
      (mixedOutcome 3).1 = (mixedOutcome 1).1 ∧
      (mixedOutcome 1).2.SameBesidesMemory (mixedOutcome 3).2 := by
  have taken : Request.Orderly (.ofBudget 4) mixedSession
        (.initial .plain (Settings.standard.withCacheSize 1) false) ∧
      ((mixedOutcome 1).2.sites.calls.get ⟨0⟩).state = .megamorphic := by decide +kernel
  have kept : ((mixedOutcome 3).2.sites.calls.get ⟨0⟩).state = .polymorphic := by decide +kernel
  exact ⟨taken.1, taken.2, kept, cache_size_unobservable taken.1⟩

end MessageMachine
