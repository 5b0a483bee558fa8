import Mathlib.Data.List.Nodup
import Mathlib.Data.List.Pairwise
import Mathlib.Data.List.Perm.Subperm
import MessageMachine.Proofs.Allotment
import MessageMachine.Proofs.Invariance

/-!
# No site is shared

The preparations of a session are listed one after the other, those that find a flaw among them.
Each of them allots the sites that follow those allotted before it, and nothing else that a machine
does allots any: evaluations change what a site has seen, but not how many there are.  The sites of
an image are therefore divided among the preparations, and within a preparation among the nodes of
the tree that it makes.
-/

namespace MessageMachine

/-- The tree of a method, if it has one. -/
def Behavior.routine? : Behavior → Option Routine
  | .defined routine => some routine
  | _ => none

/-- The trees of the methods of an image, oldest first. -/
def Image.routines (image : Image) : List Routine :=
  image.methods.cells.toList.filterMap fun method => method.behavior.routine?

/-- One preparation of a method: what is prepared, what is known about its surroundings, and the
sites and names there are. -/
structure Preparation where
  definition : Source.MethodDefinition
  surroundings : Surroundings
  sites : Sites
  interner : Interner

namespace Preparation

/-- What a preparation starts from.  No send site is listed yet. -/
def start (preparation : Preparation) : Draft :=
  { preparation.sites with interner := preparation.interner, callSites := #[] }

/-- How a preparation ends. -/
def outcome (preparation : Preparation) : EStateM.Result Flaw Draft Routine :=
  preparation.definition.prepare preparation.surroundings preparation.start

/-- The draft that a preparation leaves, flawed or not. -/
def after (preparation : Preparation) : Draft :=
  match preparation.outcome with
  | .ok _ draft => draft
  | .error _ draft => draft

/-- The tree that a preparation makes, if it finds no flaw. -/
def routine? (preparation : Preparation) : Option Routine :=
  match preparation.outcome with
  | .ok routine _ => some routine
  | .error _ _ => none

/-- The sites of a kind that a preparation allots: those between the number of sites there are
before it and the number there are after it. -/
def allots (preparation : Preparation) (kind : SiteKind) : List Nat :=
  preparation.sites.beyond preparation.after kind

theorem count_le (preparation : Preparation) (kind : SiteKind) :
    preparation.sites.count kind ≤ preparation.after.count kind := by
  have extended := preparation.definition.prepare_extends preparation.surroundings
    preparation.start
  rw [after]
  change (match preparation.outcome with
    | .ok _ after => preparation.start.Extended after
    | .error _ after => preparation.start.Extended after) at extended
  split <;> next ended =>
    rw [ended] at extended
    exact extended.sites.count_le kind

/-- The tree of a preparation uses the sites that were allotted, in the same order. -/
theorem lists_of_routine? {preparation : Preparation} {routine : Routine}
    (made : preparation.routine? = some routine) :
    preparation.sites.Lists preparation.after (Code.postorderAll routine.body) ∧
      routine.callSites.map Ref.index = preparation.allots .call := by
  unfold routine? at made
  cases result : preparation.outcome with
  | error flaw draft =>
      rw [result] at made
      cases made
  | ok prepared draft =>
      rw [result] at made
      cases made
      have ended : preparation.after = draft := by rw [after, result]
      rw [allots, ended]
      exact Source.MethodDefinition.prepare_lists rfl result

end Preparation

namespace Image

/-!
## The preparations that definitions consist of
-/

/-- The preparation of a method for a class. -/
def preparation (image : Image) (holder : ClassRef) (definition : Source.MethodDefinition) :
    Preparation where
  definition
  surroundings := image.surroundings holder definition.selector
  sites := image.sites
  interner := image.interner

/-- The preparations that installing a method takes: none if it is declared as primitive. -/
def preparationsOf (image : Image) (holder : ClassRef) (definition : Source.MethodDefinition) :
    List Preparation :=
  match definition.body with
  | .primitive => []
  | .expressions _ _ => [image.preparation holder definition]

/-- The preparations that installing methods takes, up to the first one with a flaw. -/
def preparationsOfAll (holder : ClassRef) : List Source.MethodDefinition → Image → List Preparation
  | [], _ => []
  | definition :: rest, image =>
      image.preparationsOf holder definition ++
        match installMethod holder definition image with
        | .ok _ after => preparationsOfAll holder rest after
        | .error _ _ => []

/-- The first part of a class definition, in which the class and its metaclass are registered. -/
def declareClass (definition : Source.ClassDefinition) : Defining ClassRef := do
  let superclass ← findSuperclass definition
  let image ← get
  let parent := image.classAt superclass
  checkFields definition.name parent.fields definition.fields
  checkFields definition.name (image.classAt parent.instanceOf).fields definition.classFields
  modifyGet fun image =>
    image.registerPair definition.name (some superclass) (some image.core.metaclass)
      definition.fields definition.classFields

/-- The last part of a class definition, in which the name is bound. -/
def announceClass (definition : Source.ClassDefinition) (ref : ClassRef) : Defining ClassRef := do
  let previous ← modifyGet fun image => image.setGlobal definition.name (.classObject ref)
  if previous.isSome then
    modify fun image => image.note fun _ => .classRedefined definition.name
  modify fun image => image.note fun image =>
    let type := image.classAt ref
    .classDefined definition.name type.fields.length type.methods.size
  return ref

/-- The methods are installed in between. -/
theorem defineClass_eq (definition : Source.ClassDefinition) :
    defineClass definition = (do
      let ref ← declareClass definition
      let metaclass := ((← get).classAt ref).instanceOf
      installMethods metaclass definition.classMethods
      installMethods ref definition.methods
      announceClass definition ref) := by
  simp only [defineClass, declareClass, announceClass, bind_assoc]

/-- The preparations that a class definition takes: those for the class side first. -/
def preparationsOfClass (definition : Source.ClassDefinition) (image : Image) : List Preparation :=
  match declareClass definition image with
  | .error _ _ => []
  | .ok ref image =>
      let metaclass := (image.classAt ref).instanceOf
      preparationsOfAll metaclass definition.classMethods image ++
        match installMethods metaclass definition.classMethods image with
        | .error _ _ => []
        | .ok _ image => preparationsOfAll ref definition.methods image

end Image

/-- The preparations that a request takes. -/
def Request.preparations (image : Image) : Request → List Preparation
  | .defineClass definition => Image.preparationsOfClass definition image
  | .installMethod holder definition => image.preparationsOf holder definition
  | .prepareMethod holder definition => [image.preparation holder definition]
  | _ => []

/-- The preparations that requests take, one request after the other. -/
def Request.allPreparations (machine : Machine) : List Request → Image → List Preparation
  | [], _ => []
  | request :: rest, image =>
      request.preparations image ++ allPreparations machine rest (request.serve machine image).2

/-!
## What a step does to the sites
-/

namespace Image

/-- The sites are as many as before, and the methods are the same. -/
structure Idle (before after : Image) : Prop where
  counts : ∀ kind, after.sites.count kind = before.sites.count kind
  methods : after.methods = before.methods

/-- What was added between two images comes out of some preparations: every site was allotted by
one of them, and every new method runs a tree that one of them made. -/
structure Accounts (before after : Image) (preparations : List Preparation) : Prop where
  grown : ∀ kind, before.sites.count kind ≤ after.sites.count kind
  allotted : ∀ kind,
    preparations.flatMap (·.allots kind) = before.sites.beyond after.sites kind
  installed : ∃ added, added.Sublist (preparations.filterMap Preparation.routine?) ∧
    after.routines = before.routines ++ added

variable {before between after : Image}

namespace Idle

theorem of_eq (sites : after.sites = before.sites) (methods : after.methods = before.methods) :
    before.Idle after where
  counts := fun kind => by rw [sites]
  methods := methods

theorem trans (first : before.Idle between) (second : between.Idle after) : before.Idle after where
  counts := fun kind => (second.counts kind).trans (first.counts kind)
  methods := second.methods.trans first.methods

theorem note (image : Image) (describe : Image → Event) : image.Idle (image.note describe) := by
  rw [note_eq]
  exact .of_eq rfl rfl

theorem of_tended (tended : Image.Tended (fun _ => True) before after) : before.Idle after where
  counts := fun kind => by
    cases kind with
    | call => exact congrArg Arena.size tended.calls
    | field => exact tended.fieldSites
    | control => exact congrArg Arena.size tended.controls
  methods := tended.methods

/-- Evaluations change what sites have seen, but allot none. -/
theorem act (image : Image) {action : Action} (internal : action.Internal) :
    image.Idle (action.perform image) := by
  have anything : ∀ value : Value, value.IsPlain → value.IsNormal → True :=
    fun _ _ _ => trivial
  cases action with
  | readField receiver index => exact .of_tended (readField_tended anything image receiver index)
  | writeField receiver index value =>
      exact .of_tended (writeField_tended anything image receiver index trivial)
  | readFieldAt site receiver index =>
      exact .of_tended (readFieldAt_tended anything image site receiver index)
  | writeFieldAt site receiver index value =>
      exact .of_tended (writeFieldAt_tended anything image site receiver index trivial)
  | resolve site selector receiver =>
      rcases image.lookupAt_eq site selector receiver with ⟨calls, journal, same, result⟩
      rw [Action.perform, result]
      exact ⟨fun kind => by cases kind <;> first | exact same | rfl, rfl⟩
  | resolveSuper site origin selector =>
      rcases image.lookupSuperAt_eq site origin selector with ⟨calls, same, result⟩
      rw [Action.perform, result]
      exact ⟨fun kind => by cases kind <;> first | exact same | rfl, rfl⟩
  | settle site =>
      exact ⟨fun kind => by cases kind <;> first | exact Arena.size_set _ _ _ | rfl, rfl⟩
  | bind | allocate | install | remove | register => exact internal.elim
  | _ => exact .of_eq rfl rfl

theorem enduring (start : Image) : Image.Enduring (start.Idle ·) :=
  fun image _ internal idle => idle.trans (act image internal)

end Idle

namespace Accounts

variable {earlier later : List Preparation}

theorem of_idle (idle : before.Idle after) : before.Accounts after [] where
  grown := fun kind => Nat.le_of_eq (idle.counts kind).symm
  allotted := fun kind => by
    rw [Sites.beyond, idle.counts, Nat.sub_self]
    rfl
  installed := ⟨[], List.nil_sublist _, by rw [routines, idle.methods, List.append_nil, routines]⟩

theorem trans (first : before.Accounts between earlier) (second : between.Accounts after later) :
    before.Accounts after (earlier ++ later) where
  grown := fun kind => Nat.le_trans (first.grown kind) (second.grown kind)
  allotted := fun kind => by
    rw [List.flatMap_append, first.allotted, second.allotted]
    exact Sites.beyond_append (first.grown kind) (second.grown kind)
  installed := by
    rcases first.installed with ⟨added, among, extended⟩
    rcases second.installed with ⟨more, amongToo, extendedToo⟩
    refine ⟨added ++ more, ?_, ?_⟩
    · rw [List.filterMap_append]
      exact among.append amongToo
    · rw [extendedToo, extended, List.append_assoc]

theorem idle (first : before.Accounts between earlier) (second : between.Idle after) :
    before.Accounts after earlier := by
  have both := first.trans (of_idle second)
  rwa [List.append_nil] at both

/-- A preparation by itself. -/
theorem prepare (image : Image) (holder : ClassRef) (definition : Source.MethodDefinition) :
    image.Accounts (image.adopt (image.preparation holder definition).after)
      [image.preparation holder definition] where
  grown := (image.preparation holder definition).count_le
  allotted := fun _ => List.append_nil _
  installed := ⟨[], List.nil_sublist _, (List.append_nil _).symm⟩

end Accounts

/-- Installing a method allots no sites, but a tree is added if it has one. -/
theorem counts_addMethod (image : Image) (holder : ClassRef) (selector : Selector)
    (behavior : Behavior) (kind : SiteKind) :
    (image.addMethod holder selector behavior).sites.count kind = image.sites.count kind := by
  rcases image.addMethod_eq holder selector behavior with ⟨journal, installed⟩
  rw [installed]
  cases kind <;> rfl

theorem routines_addMethod (image : Image) (holder : ClassRef) (selector : Selector)
    (behavior : Behavior) :
    (image.addMethod holder selector behavior).routines =
      image.routines ++ behavior.routine?.toList := by
  rcases image.addMethod_eq holder selector behavior with ⟨journal, installed⟩
  rw [installed]
  simp only [routines, Arena.push, Array.toList_push, List.filterMap_append]
  cases behavior <;> rfl

/-- A method without code, like one that is declared as primitive. -/
theorem Accounts.declare (image : Image) (holder : ClassRef) (selector : Selector)
    {behavior : Behavior} (none : behavior.routine? = none) :
    image.Accounts (image.addMethod holder selector behavior) [] where
  grown := fun kind => Nat.le_of_eq (image.counts_addMethod holder selector behavior kind).symm
  allotted := fun kind => by
    rw [Sites.beyond, counts_addMethod, Nat.sub_self]
    rfl
  installed := ⟨[], List.nil_sublist _, by rw [routines_addMethod, none]; rfl⟩

/-- A tree that was made can be installed. -/
theorem Accounts.install {image : Image} {holder : ClassRef} {definition : Source.MethodDefinition}
    {routine : Routine} (made : (image.preparation holder definition).routine? = some routine) :
    image.Accounts
      ((image.adopt (image.preparation holder definition).after).addMethod holder
        definition.selector (.defined routine))
      [image.preparation holder definition] where
  grown := fun kind => by
    rw [counts_addMethod]
    exact (Accounts.prepare image holder definition).grown kind
  allotted := fun kind => by
    rw [Sites.beyond, counts_addMethod]
    exact (Accounts.prepare image holder definition).allotted kind
  installed := by
    refine ⟨[routine], ?_, ?_⟩
    · rw [List.filterMap_cons, made]
      exact .refl _
    · rw [routines_addMethod]
      rfl

theorem left_prepareMethod (image : Image) (holder : ClassRef)
    (definition : Source.MethodDefinition) :
    Defining.left (prepareMethod holder definition image) =
      image.adopt (image.preparation holder definition).after := by
  have same : (image.preparation holder definition).outcome =
      definition.prepare (image.surroundings holder definition.selector) image.draft := rfl
  unfold prepareMethod Preparation.after
  rw [same]
  cases definition.prepare (image.surroundings holder definition.selector) image.draft <;> rfl

theorem routine?_of_prepareMethod {image after : Image} {holder : ClassRef}
    {definition : Source.MethodDefinition} {routine : Routine}
    (success : prepareMethod holder definition image = .ok routine after) :
    (image.preparation holder definition).routine? = some routine := by
  have same : (image.preparation holder definition).outcome =
      definition.prepare (image.surroundings holder definition.selector) image.draft := rfl
  unfold prepareMethod at success
  unfold Preparation.routine?
  rw [same]
  cases result : definition.prepare (image.surroundings holder definition.selector)
      image.draft with
  | error flaw draft =>
      rw [result] at success
      cases success
  | ok prepared draft =>
      rw [result] at success
      cases success
      rfl

/-!
## What definitions do to the sites
-/

theorem get_eq_ok (image : Image) : (get : Defining Image) image = .ok image image :=
  rfl

theorem prepareMethod_accounts (image : Image) (holder : ClassRef)
    (definition : Source.MethodDefinition) :
    image.Accounts (Defining.left (prepareMethod holder definition image))
      [image.preparation holder definition] := by
  rw [left_prepareMethod]
  exact .prepare image holder definition

theorem installMethod_accounts (image : Image) (holder : ClassRef)
    (definition : Source.MethodDefinition) :
    image.Accounts (Defining.left (installMethod holder definition image))
      (image.preparationsOf holder definition) := by
  unfold installMethod preparationsOf
  cases definition.body with
  | primitive =>
      simp only [Bind.bind, EStateM.bind, get_eq_ok]
      cases Primitive.find? (image.classAt holder).baseName (image.classAt holder).isMetaclass
          definition.selector with
      | some primitive => exact .declare image holder definition.selector rfl
      | none =>
          have noted := Accounts.of_idle (Idle.note image fun _ => .operationMissing
            ((image.classAt holder).name ++ ">>#" ++ definition.selector))
          exact noted.trans (.declare _ holder definition.selector rfl)
  | expressions temporaries body =>
      have prepared := image.prepareMethod_accounts holder definition
      have left := image.left_prepareMethod holder definition
      simp only [Bind.bind, EStateM.bind]
      cases result : prepareMethod holder definition image with
      | error flaw after =>
          rw [result] at prepared
          exact prepared
      | ok routine after =>
          rw [result] at left
          cases left
          exact .install (routine?_of_prepareMethod result)

theorem installMethods_account (holder : ClassRef) (definitions : List Source.MethodDefinition)
    (image : Image) :
    image.Accounts (Defining.left (installMethods holder definitions image))
      (preparationsOfAll holder definitions image) := by
  induction definitions generalizing image with
  | nil => exact .of_idle (.of_eq rfl rfl)
  | cons definition rest inductionHypothesis =>
      have first := image.installMethod_accounts holder definition
      simp only [installMethods, preparationsOfAll, Bind.bind, EStateM.bind]
      cases result : installMethod holder definition image with
      | error flaw after =>
          rw [result] at first
          rw [List.append_nil]
          exact first
      | ok answer after =>
          rw [result] at first
          exact first.trans (inductionHypothesis after)

/-- The parts of a class definition around its methods prepare nothing. -/
theorem declareClass_idle (definition : Source.ClassDefinition) (image : Image) :
    Defining.Leaves (image.Idle ·) image (declareClass definition) := by
  have begun : image.Idle image := .of_eq rfl rfl
  unfold declareClass
  refine .bind (findSuperclass_leaves begun definition) fun {superclass _} found _ => ?_
  cases eq_of_findSuperclass found
  refine .get_bind ?_
  refine .bind (checkFields_leaves begun _ _ _) fun checked _ => ?_
  cases (eq_of_checkFields checked).1
  refine .bind (checkFields_leaves begun _ _ _) fun checked _ => ?_
  cases (eq_of_checkFields checked).1
  have registered : image.Idle ((Action.register definition.name superclass definition.fields
      definition.classFields).perform image) := by
    rw [Action.perform, registerPair_eq]
    exact .of_eq rfl rfl
  exact registered

theorem announceClass_idle (definition : Source.ClassDefinition) (ref : ClassRef) (image : Image) :
    Defining.Leaves (image.Idle ·) image (announceClass definition ref) := by
  have bound : image.Idle (image.setGlobal definition.name (.classObject ref)).2 := .of_eq rfl rfl
  unfold announceClass
  refine .bind (show Defining.Leaves _ _ _ from bound) fun {previous between} _ idle => ?_
  have noted (describe : Image → Event) {earlier : Image} (idle : image.Idle earlier) :
      Defining.Leaves (image.Idle ·) earlier (modify fun image => image.note describe) :=
    idle.trans (.note earlier describe)
  have ending {earlier : Image} (idle : image.Idle earlier) :
      Defining.Leaves (image.Idle ·) earlier (do
        modify fun image => image.note fun image =>
          let type := image.classAt ref
          .classDefined definition.name type.fields.length type.methods.size
        return ref) :=
    .bind (noted _ idle) fun _ idle => idle
  split
  · exact .bind (noted _ idle) fun _ idle => ending idle
  · exact ending idle

theorem defineClass_accounts (definition : Source.ClassDefinition) (image : Image) :
    image.Accounts (Defining.left (defineClass definition image))
      (preparationsOfClass definition image) := by
  have declared := declareClass_idle definition image
  rw [defineClass_eq, preparationsOfClass]
  unfold Defining.Leaves at declared
  simp only [Bind.bind, EStateM.bind]
  cases result : declareClass definition image with
  | error flaw after =>
      rw [result] at declared
      exact .of_idle declared
  | ok ref between =>
      rw [result] at declared
      simp only [get_eq_ok]
      have classSide := installMethods_account (between.classAt ref).instanceOf
        definition.classMethods between
      cases resultToo : installMethods (between.classAt ref).instanceOf definition.classMethods
          between with
      | error flaw after =>
          rw [resultToo] at classSide
          rw [List.append_nil]
          exact (Accounts.of_idle declared).trans classSide
      | ok answer middle =>
          rw [resultToo] at classSide
          have bothSides := ((Accounts.of_idle declared).trans classSide).trans
            (installMethods_account ref definition.methods middle)
          dsimp only
          cases last : installMethods ref definition.methods middle with
          | error flaw after =>
              rw [last] at bothSides
              exact bothSides
          | ok answer after =>
              rw [last] at bothSides
              exact bothSides.idle (announceClass_idle definition ref after)

end Image

namespace Request

/-- What a request adds comes out of its preparations. -/
theorem serve_accounts (budget : Nat) (request : Request) (image : Image) :
    image.Accounts (request.serve (.ofBudget budget) image).2 (request.preparations image) := by
  have acts (action : Action) (internal : action.Internal) :
      image.Accounts (action.perform image) [] := .of_idle (.act image internal)
  have evaluated {body : Machine → Eval Value} (evaluation : request.evaluation? = some body) :
      image.Accounts (request.serve (.ofBudget budget) image).2 [] :=
    .of_idle (serve_of_enduring (Image.Idle.enduring image) budget evaluation (.of_eq rfl rfl))
  cases request with
  | defineClass definition =>
      rw [serve, Response.ofDefining_snd]
      exact Image.defineClass_accounts definition image
  | installMethod holder definition =>
      rw [serve, Response.ofDefining_snd]
      exact image.installMethod_accounts holder definition
  | prepareMethod holder definition =>
      rw [serve, Response.ofDefining_snd]
      exact image.prepareMethod_accounts holder definition
  | removeMethod holder selector => exact .of_idle (.of_eq rfl rfl)
  | meet name => exact .of_idle (.of_eq rfl rfl)
  | setGlobal name value => exact .of_idle (.of_eq rfl rfl)
  | instantiate owner => exact acts (.instantiate owner) trivial
  | makeArray elements => exact acts (.makeArray elements.toArray) trivial
  | detach block => exact acts (.makeBlock { image.blockAt block with captured := none }) trivial
  | readField receiver index => exact acts (.readField receiver index) trivial
  | writeField receiver index value => exact acts (.writeField receiver index value) trivial
  | send | invoke | deliver | activate => exact evaluated rfl

/-- A host is only told of trees that were prepared. -/
theorem mem_preparations_of_prepared {machine : Machine} {request : Request} {image : Image}
    {routine : Routine} (told : (request.serve machine image).1 = .prepared routine) :
    routine ∈ (request.preparations image).filterMap Preparation.routine? := by
  have evaluating (result : EStateM.Result Escape Image Value) :
      (Response.ofEval result).1 ≠ .prepared routine := by
    cases result <;> exact nofun
  have optional (value : Option Value) : Response.ofOption value ≠ .prepared routine := by
    cases value <;> exact nofun
  cases request with
  | prepareMethod holder definition =>
      rw [serve] at told
      cases result : Image.prepareMethod holder definition image with
      | error flaw after =>
          rw [result] at told
          cases told
      | ok prepared after =>
          rw [result] at told
          cases told
          have made := Image.routine?_of_prepareMethod result
          rw [preparations, List.filterMap_cons, made]
          exact List.mem_cons_self
  | defineClass | installMethod =>
      exact absurd told (Response.ofDefining_fst (motive := (· ≠ .prepared routine))
        (fun _ => Response.noConfusion) (fun _ => Response.noConfusion) _)
  | removeMethod holder selector => cases told
  | detach block => cases told
  | meet name => cases told
  | setGlobal name value => exact absurd told (optional _)
  | readField receiver index => exact absurd told (optional _)
  | writeField receiver index value =>
      simp only [serve] at told
      split at told <;> cases told
  | instantiate | makeArray | send | invoke | deliver | activate =>
      exact absurd told (evaluating _)

/-- What requests add comes out of their preparations, and so does what the host is told. -/
theorem serveAll_accounts (budget : Nat) (requests : List Request) (image : Image) :
    image.Accounts (serveAll (.ofBudget budget) requests image).2
        (allPreparations (.ofBudget budget) requests image) ∧
      ∀ routine, Response.prepared routine ∈ (serveAll (.ofBudget budget) requests image).1 →
        routine ∈ (allPreparations (.ofBudget budget) requests image).filterMap
          Preparation.routine? := by
  induction requests generalizing image with
  | nil => exact ⟨.of_idle (.of_eq rfl rfl), nofun⟩
  | cons request rest inductionHypothesis =>
      have later := inductionHypothesis (request.serve (.ofBudget budget) image).2
      refine ⟨(request.serve_accounts budget image).trans later.1, ?_⟩
      intro routine told
      rw [allPreparations, List.filterMap_append]
      rcases List.mem_cons.mp told with same | told
      · exact List.mem_append_left _ (mem_preparations_of_prepared same.symm)
      · exact List.mem_append_right _ (later.2 routine told)

end Request

/-!
## Whole sessions
-/

/-- Where there is no code yet there are no trees. -/
theorem Image.Codeless.routines {image : Image} (codeless : image.Codeless) :
    image.routines = [] := by
  rw [Image.routines, List.filterMap_eq_nil_iff]
  intro method member
  rcases List.mem_iff_getElem.mp member with ⟨place, inside, same⟩
  have bodiless := codeless.methods ⟨place⟩
  have stands : image.methodAt ⟨place⟩ = method := by
    rw [← same, Image.methodAt, Arena.get, Array.getD_eq_getD_getElem?]
    simp only [Array.length_toList] at inside
    simp [inside]
  rw [stands] at bodiless
  cases behavior : method.behavior with
  | defined routine =>
      rw [behavior] at bodiless
      exact bodiless.elim
  | primitive operation => rfl
  | missing title => rfl

namespace Session

/-- The preparations of a session, whatever they come to, one after the other. -/
def preparations (session : Session) : List Preparation :=
  Request.allPreparations (.ofBudget session.budget) session.requests session.start

/-- The trees that the preparations of a session make. -/
def trees (session : Session) : List Routine :=
  session.preparations.filterMap Preparation.routine?

/-- The sites of a session are divided among its preparations, and within them among the nodes of
their trees. -/
structure DividesSites (session : Session) : Prop where
  /-- Every site there is was allotted by one preparation, and later ones allot later sites. -/
  allotted : ∀ kind, session.preparations.flatMap (·.allots kind) =
    List.range (session.outcome.2.sites.count kind)
  /-- No site is used twice, neither in one tree nor in two. -/
  apart : ∀ kind, (session.trees.flatMap fun routine =>
    (Code.outlineAll routine.body).filterMap (OutlineNode.site? kind)).Nodup
  /-- The sites of a preparation with a flaw are used in no tree. -/
  unused : ∀ preparation ∈ session.preparations, preparation.routine? = none →
    ∀ kind, ∀ site ∈ preparation.allots kind, ∀ routine ∈ session.trees,
      ∀ node ∈ Code.outlineAll routine.body, node.site? kind ≠ some site
  /-- The sites of a preparation without a flaw belong to the nodes of its tree, one by one and in
  the order in which operands come before what is done with them.  Those of the sends are the ones
  that the tree lists. -/
  ordered : ∀ preparation ∈ session.preparations, ∀ routine, preparation.routine? = some routine →
    routine.callSites = (preparation.allots .call).map Ref.mk ∧
      ∀ kind, (Code.postorderAll routine.body).filterMap (OutlineNode.site? kind) =
        preparation.allots kind
  /-- The methods of the image run such trees, each of them another one. -/
  installed : session.outcome.2.routines.Sublist session.trees
  /-- The host is told of such trees. -/
  told : ∀ routine, Response.prepared routine ∈ session.outcome.1 → routine ∈ session.trees

end Session

namespace Preparation

variable {preparations : List Preparation} {kind : SiteKind}

/-- The sites of the nodes of a tree, in the other order. -/
theorem perm_of_routine? {preparation : Preparation} {routine : Routine}
    (made : preparation.routine? = some routine) (kind : SiteKind) :
    ((Code.outlineAll routine.body).filterMap (OutlineNode.site? kind)).Perm
      (preparation.allots kind) := by
  have listed := (lists_of_routine? made).1.listed kind
  rw [allots, ← listed]
  exact ((Code.postorderAll_perm routine.body).filterMap _).symm

/-- What trees use is among what the preparations allot, with the same repetitions. -/
theorem subperm_trees (preparations : List Preparation) (kind : SiteKind) :
    List.Subperm
      ((preparations.filterMap routine?).flatMap fun routine =>
        (Code.outlineAll routine.body).filterMap (OutlineNode.site? kind))
      (preparations.flatMap (·.allots kind)) := by
  induction preparations with
  | nil => exact List.Subperm.refl _
  | cons preparation rest inductionHypothesis =>
      rw [List.flatMap_cons]
      cases made : preparation.routine? with
      | none =>
          rw [List.filterMap_cons_none made]
          exact inductionHypothesis.trans (List.sublist_append_right _ _).subperm
      | some routine =>
          rw [List.filterMap_cons_some made, List.flatMap_cons]
          exact (perm_of_routine? made kind).subperm.append inductionHypothesis

/-- Where no site is allotted twice, two preparations that allot one site are the same. -/
theorem eq_of_allots (apart : (preparations.flatMap (·.allots kind)).Nodup)
    {preparation other : Preparation} (member : preparation ∈ preparations)
    (memberToo : other ∈ preparations) {site : Nat} (allotted : site ∈ preparation.allots kind)
    (allottedToo : site ∈ other.allots kind) : preparation = other := by
  by_contra different
  have symmetric : Std.Symm (Function.onFun List.Disjoint fun preparation : Preparation =>
      preparation.allots kind) := ⟨fun _ _ disjoint _ theirs mine => disjoint mine theirs⟩
  have disjoint := (List.nodup_flatMap.mp apart).2.forall member memberToo different
  exact disjoint allotted allottedToo

end Preparation

/-- Sites are never shared: however requests prepare methods, install them and define classes, with
flaws or without, and whatever runs in between, every site belongs to one preparation and to one
node at most. -/
theorem Session.sites_never_shared (platform : Platform) (settings : Settings) (listening : Bool)
    (budget : Nat) (requests : List Request) :
    (Session.fresh platform settings listening budget requests).DividesSites := by
  generalize same : Session.fresh platform settings listening budget requests = session
  have codeless := Image.codeless_initial platform settings listening
  rw [← start_fresh platform settings listening budget requests, same] at codeless
  have accounts := Request.serveAll_accounts session.budget session.requests session.start
  have allotted (kind : SiteKind) : session.preparations.flatMap (·.allots kind) =
      List.range (session.outcome.2.sites.count kind) := by
    have none : session.start.sites.count kind = 0 := by
      cases kind with
      | call => exact codeless.calls
      | field => exact codeless.fields
      | control => exact codeless.controls
    have all := accounts.1.allotted kind
    rw [Sites.beyond, none, Nat.sub_zero, ← List.range_eq_range'] at all
    exact all
  have once (kind : SiteKind) : (session.preparations.flatMap (·.allots kind)).Nodup := by
    rw [allotted]
    exact List.nodup_range
  constructor
  case allotted => exact allotted
  case apart =>
    intro kind
    rcases Preparation.subperm_trees session.preparations kind with ⟨sites, perm, among⟩
    exact perm.nodup_iff.mp ((once kind).sublist among)
  case unused =>
    intro preparation member flawed kind site mine routine made node outlined taken
    rcases List.mem_filterMap.mp made with ⟨other, memberToo, madeToo⟩
    have used := List.mem_filterMap.mpr ⟨node, outlined, taken⟩
    have theirs := (Preparation.perm_of_routine? madeToo kind).mem_iff.mp used
    cases Preparation.eq_of_allots (once kind) member memberToo mine theirs
    cases flawed.symm.trans madeToo
  case ordered =>
    intro preparation member routine made
    have lists := Preparation.lists_of_routine? made
    refine ⟨?_, lists.1.listed⟩
    rw [← lists.2, List.map_map]
    exact (List.map_id _).symm
  case installed =>
    have none : session.start.routines = [] := codeless.routines
    rcases accounts.1.installed with ⟨added, among, extended⟩
    rw [none, List.nil_append] at extended
    exact extended ▸ among
  case told => exact accounts.2

/-- A class whose second method sends a message, then reads a field that is not there. -/
def wastefulClass : Source.ClassDefinition where
  name := "Waste"
  superclass := none
  fields := ["first"]
  classFields := []
  classMethods := []
  methods := [
    { selector := "fill", parameters := 0, body := .expressions 0 [
        .write (.field 0) (.send .self "ifTrue:" [.block 0 0 [.send .self "make" []]])] },
    { selector := "spill", parameters := 0, body := .expressions 0 [
        .send .self "make" [], .read (.field 0), .read (.field 1)] },
    { selector := "never", parameters := 0, body := .expressions 0 [.send .self "make" []] }]

/-- The method is prepared for the root class after the class definition has failed. -/
def wastefulSession : Session :=
  .fresh .plain .standard false 0 [.defineClass wastefulClass, .prepareMethod ⟨2⟩
    { selector := "refill", parameters := 0, body := .expressions 0 [.send .self "make" []] }]

/-- The sites that the flawed method had been allotted are skipped, and the method after it is not
prepared at all. -/
example :
    wastefulSession.preparations.map (fun preparation => (preparation.routine?.isSome,
      preparation.allots .call, preparation.allots .field, preparation.allots .control)) =
      [(true, [0, 1], [0], [0]), (false, [2], [1], []), (true, [3], [], [])] := by
  decide +kernel

end MessageMachine
