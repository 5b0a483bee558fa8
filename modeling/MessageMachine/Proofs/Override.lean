import MessageMachine.Proofs.Atomicity

/-!
# Installing a method overrides

A class finds a method that is installed somewhere on its way up to the root, unless a class before
that one has a method of its own under the same selector.  Nothing else is found than before.  The
way up is the chain of superclasses; for a metaclass it goes on from the metaclass of the root to
the class of classes, so that class objects find what is installed there as well.
-/

namespace MessageMachine

/-- Giving a name an entry changes no other entry, nor the order of the others. -/
theorem Dictionary.erase_insert {Entry : Type} (dictionary : Dictionary Entry) (name : String)
    (entry : Entry) : (dictionary.insert name entry).erase name = dictionary.erase name := by
  obtain ⟨entries⟩ := dictionary
  refine congrArg Dictionary.mk ?_
  change (place name entry entries).filter (fun pair => pair.1 ≠ name) =
    entries.filter fun pair => pair.1 ≠ name
  induction entries with
  | nil => simp [place]
  | cons head tail inductionHypothesis =>
      by_cases same : head.1 = name
      · simp [place, same]
      · simp only [place, if_neg same, List.filter_cons, inductionHypothesis]

namespace Image

/-- The chain of superclasses of a class, which starts with the class itself. -/
inductive Ancestry (image : Image) : ClassRef → List ClassRef → Prop
  | root {ref : ClassRef} : (image.classAt ref).superclass = none → Ancestry image ref [ref]
  | step {ref parent : ClassRef} {chain : List ClassRef} :
      (image.classAt ref).superclass = some parent → Ancestry image parent chain →
      Ancestry image ref (ref :: chain)

/-- Whether a class finds under a selector what a class on its chain holds: none of the classes
before that one has an entry for the selector. -/
def Exposes (image : Image) (ref holder : ClassRef) (selector : Selector) : Prop :=
  ∃ nearer further, image.Ancestry ref (nearer ++ holder :: further) ∧
    ∀ type ∈ nearer, (image.classAt type).methods.find? selector = none

/-- A lineage that ends is the whole chain of superclasses. -/
theorem ancestry_of_endsWithin {image : Image} {steps : Nat} {ref : ClassRef}
    (ends : image.endsWithin steps ref = true) :
    image.Ancestry ref (image.lineageWithin steps ref) := by
  induction steps generalizing ref with
  | zero => cases ends
  | succ steps inductionHypothesis =>
      simp only [endsWithin] at ends
      simp only [lineageWithin]
      cases found : (image.classAt ref).superclass with
      | none => exact .root found
      | some parent =>
          simp only [found] at ends
          exact .step found (inductionHypothesis ends)

/-- A class has one chain of superclasses. -/
theorem Ancestry.unique {image : Image} {ref : ClassRef} {chain other : List ClassRef}
    (ancestry : image.Ancestry ref chain) (ancestryToo : image.Ancestry ref other) :
    other = chain := by
  induction ancestry generalizing other with
  | root none =>
      cases ancestryToo with
      | root => rfl
      | step found => cases none.symm.trans found
  | step found _ inductionHypothesis =>
      cases ancestryToo with
      | root none => cases none.symm.trans found
      | step foundToo rest =>
          cases found.symm.trans foundToo
          exact congrArg _ (inductionHypothesis rest)

/-- Chains depend on superclasses only. -/
theorem Ancestry.congr {before after : Image} {ref : ClassRef} {chain : List ClassRef}
    (ancestry : before.Ancestry ref chain)
    (same : ∀ type, (after.classAt type).superclass = (before.classAt type).superclass) :
    after.Ancestry ref chain := by
  induction ancestry with
  | root none => exact .root ((same _).trans none)
  | step found _ inductionHypothesis => exact .step ((same _).trans found) inductionHypothesis

/-- The first entry along a chain, after one class was given an entry. -/
theorem findSome?_override {held given : ClassRef → Option MethodRef} {holder : ClassRef}
    {method : MethodRef} (others : ∀ type, type ≠ holder → given type = held type)
    (own : given holder = some method) (chain : List ClassRef) :
    ((∃ nearer further, chain = nearer ++ holder :: further ∧ ∀ type ∈ nearer, held type = none) ∧
      chain.findSome? given = some method) ∨
    ((¬ ∃ nearer further, chain = nearer ++ holder :: further ∧
        ∀ type ∈ nearer, held type = none) ∧
      chain.findSome? given = chain.findSome? held) := by
  induction chain with
  | nil => exact Or.inr ⟨by simp, rfl⟩
  | cons type rest inductionHypothesis =>
      by_cases first : type = holder
      · subst first
        exact Or.inl ⟨⟨[], rest, rfl, nofun⟩, by rw [List.findSome?_cons, own]⟩
      · rw [List.findSome?_cons, List.findSome?_cons, others type first]
        cases entry : held type with
        | some found =>
            refine Or.inr ⟨?_, rfl⟩
            rintro ⟨nearer, further, split, empty⟩
            cases nearer with
            | nil => exact first (List.cons.inj split).1
            | cons other nearer =>
                have known := empty other List.mem_cons_self
                rw [← (List.cons.inj split).1, entry] at known
                cases known
        | none =>
            rcases inductionHypothesis with
              ⟨⟨nearer, further, split, empty⟩, found⟩ | ⟨hidden, same⟩
            · refine Or.inl ⟨⟨type :: nearer, further, congrArg _ split, ?_⟩, found⟩
              exact List.forall_mem_cons.mpr ⟨entry, empty⟩
            · refine Or.inr ⟨?_, same⟩
              rintro ⟨nearer, further, split, empty⟩
              cases nearer with
              | nil => exact first (List.cons.inj split).1
              | cons other nearer =>
                  exact hidden ⟨nearer, further, (List.cons.inj split).2,
                    fun nearby member => empty nearby (List.mem_cons_of_mem _ member)⟩

/-- What the installation of a method in a class comes to. -/
structure Overridden (before : Image) (holder : ClassRef) (selector : Selector)
    (method : MethodRef) (after : Image) : Prop where
  /-- Every class has one chain of superclasses, and keeps it. -/
  chains : ∀ ref, before.classes.Has ref → ∃ chain, before.Ancestry ref chain ∧
    after.Ancestry ref chain ∧ ∀ other, before.Ancestry ref other → other = chain
  exposed : ∀ ref, before.classes.Has ref → before.Exposes ref holder selector →
    after.lookup ref selector = some method
  otherwise : ∀ ref, before.classes.Has ref → ∀ other,
    ¬ (other = selector ∧ before.Exposes ref holder selector) →
    after.lookup ref other = before.lookup ref other
  new : ¬ before.methods.Has method ∧ after.methods.Has method
  methods : ∀ other, before.methods.Has other → after.methodAt other = before.methodAt other
  classes : ∀ ref, ref ≠ holder → after.classAt ref = before.classAt ref
  changed : after.classAt holder =
    { before.classAt holder with
      methods := (before.classAt holder).methods.insert selector method }
  /-- The other entries stay, in the order they had. -/
  entries : (after.classAt holder).methods.erase selector =
    (before.classAt holder).methods.erase selector
  /-- A selector that had an entry keeps its place, another one comes last. -/
  keys : (after.classAt holder).methods.keys =
    if selector ∈ (before.classAt holder).methods.keys then (before.classAt holder).methods.keys
    else (before.classAt holder).methods.keys ++ [selector]

section Installing

variable {image after : Image} {holder : ClassRef} {selector : Selector} {method : MethodRef}
  (classes : ∀ ref, ref ≠ holder → after.classAt ref = image.classAt ref)
  (changed : after.classAt holder =
    { image.classAt holder with
      methods := (image.classAt holder).methods.insert selector method })
include classes changed

theorem superclass_of_changed (ref : ClassRef) :
    (after.classAt ref).superclass = (image.classAt ref).superclass := by
  by_cases same : ref = holder
  · rw [same, changed]
  · rw [classes ref same]

/-- Under other selectors, every dictionary finds what it found. -/
theorem find?_of_changed {other : Selector} (different : other ≠ selector) (ref : ClassRef) :
    (after.classAt ref).methods.find? other = (image.classAt ref).methods.find? other := by
  by_cases same : ref = holder
  · rw [same, changed]
    exact Dictionary.find?_insert_of_ne _ _ _ _ different
  · rw [classes ref same]

/-- A lookup finds the method that a dictionary was given if the class exposes it, and otherwise
what it found before. -/
theorem lookup_of_changed (rooted : image.Rooted)
    (count : after.classes.size = image.classes.size) {ref : ClassRef}
    (known : image.classes.Has ref) :
    (image.Exposes ref holder selector → after.lookup ref selector = some method) ∧
    ∀ other, ¬ (other = selector ∧ image.Exposes ref holder selector) →
      after.lookup ref other = image.lookup ref other := by
  have ancestry := ancestry_of_endsWithin (rooted ref known)
  have lineage : after.lineage ref = image.lineage ref := by
    rw [Image.lineage, count]
    exact lineageWithin_of_superclass (superclass_of_changed classes changed) _ ref
  have exposes : image.Exposes ref holder selector ↔ ∃ nearer further,
      image.lineage ref = nearer ++ holder :: further ∧
        ∀ type ∈ nearer, (image.classAt type).methods.find? selector = none := by
    constructor
    · rintro ⟨nearer, further, chain, empty⟩
      exact ⟨nearer, further, chain.unique ancestry, empty⟩
    · rintro ⟨nearer, further, split, empty⟩
      exact ⟨nearer, further, split ▸ ancestry, empty⟩
  have own : (after.classAt holder).methods.find? selector = some method := by
    rw [changed]
    exact Dictionary.find?_insert_same _ _ _
  have override := @findSome?_override
    (fun type => (image.classAt type).methods.find? selector)
    (fun type => (after.classAt type).methods.find? selector) holder method
    (fun type other => by rw [classes type other]) own (image.lineage ref)
  rw [← exposes] at override
  refine ⟨fun exposed => ?_, fun other hidden => ?_⟩
  · rw [Image.lookup, lineage]
    exact (override.resolve_right fun contrary => contrary.1 exposed).2
  · rw [Image.lookup, lineage]
    by_cases same : other = selector
    · rw [same] at hidden ⊢
      exact (override.resolve_left fun contrary => hidden ⟨rfl, contrary.1⟩).2
    · simp only [find?_of_changed classes changed same]
      rfl

end Installing

/-- A new method of a class overrides, as far as the other classes let it.  Sites, names and events
that were added before make no difference. -/
theorem overridden_addMethod {image : Image} (rooted : image.Rooted) {holder : ClassRef}
    (known : image.classes.Has holder) (sites : Sites) (interner : Interner) (journal : Journal)
    (selector : Selector) (behavior : Behavior) :
    image.Overridden holder selector image.methods.next
        ({ image with sites, interner, journal }.addMethod holder selector behavior) ∧
      ({ image with sites, interner, journal }.addMethod holder selector behavior).methodAt
        image.methods.next = { holder, selector, behavior } := by
  obtain ⟨noted, installed⟩ :=
    ({ image with sites, interner, journal } : Image).addMethod_eq holder selector behavior
  rw [installed]
  generalize result : ({ image with
    methods := image.methods.push { holder, selector, behavior }
    classes := image.classes.modify holder fun type =>
      { type with methods := type.methods.insert selector image.methods.next }
    sites := { sites with version := sites.version + 1 }
    interner := (interner.intern selector).2
    journal := noted } : Image) = after
  have methods : after.methods = image.methods.push { holder, selector, behavior } :=
    result ▸ rfl
  have count : after.classes.size = image.classes.size := result ▸ Arena.size_modify _ _ _
  have classes : ∀ ref, ref ≠ holder → after.classAt ref = image.classAt ref := by
    intro ref other
    have apart : ¬ (ref = holder ∧ image.classes.Has ref) := fun same => other same.1
    rw [← result, classAt, Arena.get_modify, if_neg apart, classAt]
  have changed : after.classAt holder = { image.classAt holder with
      methods := (image.classAt holder).methods.insert selector image.methods.next } := by
    rw [← result, classAt, Arena.get_modify, if_pos ⟨rfl, known⟩, classAt]
  have lookups := fun {ref} => @lookup_of_changed image after holder selector image.methods.next
    classes changed rooted count ref
  refine ⟨?_, by rw [methodAt, methods, Arena.get_push_next]⟩
  exact {
    chains := fun ref known =>
      have ancestry := ancestry_of_endsWithin (rooted ref known)
      ⟨_, ancestry, ancestry.congr (superclass_of_changed classes changed),
        fun _ other => ancestry.unique other⟩
    exposed := fun ref known => (lookups known).1
    otherwise := fun ref known => (lookups known).2
    new := by
      rw [methods]
      exact ⟨image.methods.not_has_next, (Arena.has_push _ _ _).mpr (Or.inr rfl)⟩
    methods := fun other old => by
      rw [methodAt, methods]
      exact Arena.get_push_of_has _ old
    classes := classes
    changed := changed
    entries := by
      rw [changed]
      exact Dictionary.erase_insert _ _ _
    keys := by
      rw [changed]
      exact Dictionary.keys_insert _ _ _ }

end Image

open Image in
/-- The installation of a method overrides.  If it is accepted, the class has a new method under the
selector, which does what the definition says.  From then on a class finds that method under that
selector if the holder stands on its chain of superclasses and no class before the holder has an
entry of its own; in every other case it finds what it found before.  No other class is changed, and
in the dictionary of the holder no other entry is. -/
theorem installation_overrides {platform : Platform} {settings : Settings} {listening : Bool}
    {actions : List Action} {image after : Image}
    (history : (Image.initial platform settings listening).Reaches actions image)
    {holder : ClassRef} (known : image.classes.Has holder) {definition : Source.MethodDefinition}
    (accepted : installMethod holder definition image = .ok () after) :
    ∃ method behavior, image.Produces holder definition behavior ∧
      after.methodAt method = { holder, selector := definition.selector, behavior } ∧
      image.Overridden holder definition.selector method after := by
  have rooted := history.rooted (wellFormed_initial platform settings listening)
    (registry_initial platform settings listening).1.rooted
  have ending := image.installMethod_ends holder definition
  rw [accepted] at ending
  generalize same : EStateM.Result.ok () after = result at ending
  cases ending with
  | flawed => cases same
  | @installed behavior sites journal names produces _ _ =>
      cases same
      obtain ⟨overridden, added⟩ := overridden_addMethod rooted known sites
        (image.interner.internAll names) journal definition.selector behavior
      exact ⟨image.methods.next, behavior, produces, added, overridden⟩

/-- A method of the root under a selector that points have a method of their own for. -/
def rootMethod : Source.MethodDefinition where
  selector := "x"
  parameters := 0
  body := .expressions 0 [.self]

/-- Points go on finding their own method.  Their class, as an object, finds the one of the root,
which its metaclass comes to by way of the class of classes. -/
theorem installation_overrides_crossing :
    ∃ actions image after, (Image.initial .plain .standard false).Reaches actions image ∧
      Image.installMethod ⟨1⟩ rootMethod image = .ok () after ∧
      image.lookup ⟨37⟩ "x" ≠ none ∧ after.lookup ⟨37⟩ "x" = image.lookup ⟨37⟩ "x" ∧
      image.lookupFor (.classObject ⟨37⟩) "x" = none ∧
      ∃ method, ¬ image.methods.Has method ∧
        after.lookup (image.classOf (.classObject ⟨37⟩)) "x" = some method := by
  let start := Image.initial .plain .standard false
  have admissible : (Request.defineClass pointClass).Admissible start := by decide +kernel
  obtain ⟨actions, history⟩ :=
    Request.serve_reaches (Image.wellFormed_initial .plain .standard false) admissible 0
  let image := ((Request.defineClass pointClass).serve (.ofBudget 0) start).2
  obtain ⟨known, metaclass, own, parents, empty⟩ :
      (image.classes.Has ⟨1⟩ ∧ image.classes.Has ⟨36⟩ ∧ image.classes.Has ⟨37⟩) ∧
      (image.classOf (.classObject ⟨37⟩) = ⟨36⟩ ∧
        image.lookupFor (.classObject ⟨37⟩) "x" = none) ∧
      (image.lookup ⟨37⟩ "x" ≠ none ∧ (image.classAt ⟨37⟩).methods.find? "x" ≠ none) ∧
      ((image.classAt ⟨37⟩).superclass = some ⟨1⟩ ∧ (image.classAt ⟨36⟩).superclass = some ⟨0⟩ ∧
        (image.classAt ⟨0⟩).superclass = some ⟨3⟩ ∧ (image.classAt ⟨3⟩).superclass = some ⟨1⟩ ∧
        (image.classAt ⟨1⟩).superclass = none) ∧
      ∀ type ∈ [⟨36⟩, ⟨0⟩, ⟨3⟩], (image.classAt type).methods.find? "x" = none := by
    decide +kernel
  have root : image.Ancestry ⟨1⟩ [⟨1⟩] := .root parents.2.2.2.2
  have point : image.Ancestry ⟨37⟩ [⟨37⟩, ⟨1⟩] := .step parents.1 root
  have crossing : image.Ancestry ⟨36⟩ [⟨36⟩, ⟨0⟩, ⟨3⟩, ⟨1⟩] :=
    .step parents.2.1 (.step parents.2.2.1 (.step parents.2.2.2.1 root))
  have accepted : EStateM.run' (Image.installMethod ⟨1⟩ rootMethod) image = some () := by
    decide +kernel
  cases result : Image.installMethod ⟨1⟩ rootMethod image with
  | error flaw after =>
      rw [Defining.run'_eq, result] at accepted
      cases accepted
  | ok answer after =>
      obtain ⟨method, -, -, -, overridden⟩ := installation_overrides history known.1 result
      refine ⟨actions, image, after, history, result, own.1, ?_, metaclass.2, method,
        overridden.new.1, ?_⟩
      · refine overridden.otherwise ⟨37⟩ known.2.2 "x" ?_
        rintro ⟨-, nearer, further, chain, absent⟩
        have split := chain.unique point
        cases nearer with
        | nil => cases split
        | cons first nearer =>
            cases (List.cons.inj split).1
            exact own.2 (absent ⟨37⟩ List.mem_cons_self)
      · rw [metaclass.1]
        exact overridden.exposed ⟨36⟩ known.2.1 ⟨_, [], crossing, empty⟩

end MessageMachine
