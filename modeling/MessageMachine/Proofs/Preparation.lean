import MessageMachine.Code.Outline
import MessageMachine.Proofs.Action

/-!
# What preparation allocates

Preparation only ever meets names and adds sites, whether it succeeds or not, and the send sites
that it adds are those that it lists.  When it succeeds, the code that it gives has a node for each
of the sites added on the way, and no two nodes share one: the sites of an operand are all older
than the site of the send that it is an operand of.  Code that was just prepared is therefore fresh,
and can be installed.
-/

namespace MessageMachine

namespace Sites

variable {before between after : Sites}

theorem Grown.refl (sites : Sites) : sites.Grown sites where
  calls := fun _ => rfl
  fields := fun _ => rfl
  controls := fun _ => rfl
  callCount := Nat.le_refl _
  fieldCount := Nat.le_refl _
  version := rfl

theorem Grown.trans (earlier : before.Grown between) (later : between.Grown after) :
    before.Grown after where
  calls := fun site => (later.calls site).trans (earlier.calls site)
  fields := fun site => (later.fields site).trans (earlier.fields site)
  controls := fun site => (later.controls site).trans (earlier.controls site)
  callCount := Nat.le_trans earlier.callCount later.callCount
  fieldCount := Nat.le_trans earlier.fieldCount later.fieldCount
  version := later.version.trans earlier.version

/-- The sites with one more send site. -/
def addCall (sites : Sites) : Sites :=
  { sites with calls := sites.calls.push .uninitialized }

/-- The sites with one more field site. -/
def addField (sites : Sites) : Sites :=
  { sites with fields := sites.fields.push none }

/-- The sites with one more control site. -/
def addControl (sites : Sites) : Sites :=
  { sites with controls := sites.controls.push .specialized }

end Sites

/-- A new cell that is like the default one changes no lookup. -/
theorem Arena.get_push_default {region : Region} {Cell : Type} [Inhabited Cell]
    (arena : Arena region Cell) (ref : Ref region) :
    (arena.push default).get ref = arena.get ref := by
  rw [Arena.get_push]
  split
  · next same => rw [same, Arena.get_of_not_has arena.not_has_next]
  · rfl

namespace Sites

theorem grown_addCall (sites : Sites) : sites.Grown sites.addCall :=
  { Grown.refl sites with
    calls := fun site => Arena.get_push_default sites.calls site
    callCount := by simp [addCall] }

theorem grown_addField (sites : Sites) : sites.Grown sites.addField :=
  { Grown.refl sites with
    fields := fun site => Arena.get_push_default sites.fields site
    fieldCount := by simp [addField] }

theorem grown_addControl (sites : Sites) : sites.Grown sites.addControl :=
  { Grown.refl sites with
    controls := fun site => Arena.get_push_default sites.controls site }

/-- The sites that allocations lead to.  Each of them adds one site, which has seen nothing yet. -/
inductive Allotted (before : Sites) : Sites → Prop
  | nothing : Allotted before before
  | call {after : Sites} : Allotted before after → Allotted before after.addCall
  | field {after : Sites} : Allotted before after → Allotted before after.addField
  | control {after : Sites} : Allotted before after → Allotted before after.addControl

variable {before between after : Sites}

theorem Allotted.trans (earlier : before.Allotted between) (later : between.Allotted after) :
    before.Allotted after := by
  induction later with
  | nothing => exact earlier
  | call _ inductionHypothesis => exact .call inductionHypothesis
  | field _ inductionHypothesis => exact .field inductionHypothesis
  | control _ inductionHypothesis => exact .control inductionHypothesis

/-- Allocations leave the sites alone that there are. -/
theorem Allotted.grown (allotted : before.Allotted after) : before.Grown after := by
  induction allotted with
  | nothing => exact .refl before
  | call _ inductionHypothesis => exact inductionHypothesis.trans (grown_addCall _)
  | field _ inductionHypothesis => exact inductionHypothesis.trans (grown_addField _)
  | control _ inductionHypothesis => exact inductionHypothesis.trans (grown_addControl _)

end Sites

namespace Draft

/-- The draft with one more name met. -/
def meet (draft : Draft) (name : String) : Draft :=
  { draft with interner := (draft.interner.intern name).2 }

/-- The draft with names met one after the other. -/
def meetAll (draft : Draft) (names : List String) : Draft :=
  { draft with interner := draft.interner.internAll names }

theorem meetAll_append (draft : Draft) (names others : List String) :
    draft.meetAll (names ++ others) = (draft.meetAll names).meetAll others := by
  simp only [meetAll, Interner.internAll, List.foldl_append]

/-- The draft with one more send site. -/
def addCall (draft : Draft) : Draft :=
  { draft with
    toSites := draft.toSites.addCall
    callSites := draft.callSites.push draft.calls.next }

/-- The draft with one more field site. -/
def addField (draft : Draft) : Draft :=
  { draft with toSites := draft.toSites.addField }

/-- The draft with one more control site. -/
def addControl (draft : Draft) : Draft :=
  { draft with toSites := draft.toSites.addControl }

/-- The send sites that a draft has beyond another one, oldest first. -/
def callsSince (before after : Draft) : List CallSiteRef :=
  (List.range' before.calls.size (after.calls.size - before.calls.size)).map Ref.mk

/-- What preparation adds to a draft: names, sites that have seen nothing yet, and the new send
sites at the end of the list. -/
structure Extended (before after : Draft) : Prop where
  sites : before.Allotted after
  names : ∃ names, after.interner = before.interner.internAll names
  callSites : after.callSites.toList = before.callSites.toList ++ before.callsSince after

namespace Extended

variable {before between after : Draft}

theorem refl (draft : Draft) : draft.Extended draft where
  sites := .nothing
  names := ⟨[], rfl⟩
  callSites := by simp [callsSince]

theorem trans (earlier : before.Extended between) (later : between.Extended after) :
    before.Extended after where
  sites := earlier.sites.trans later.sites
  names := by
    obtain ⟨names, first⟩ := earlier.names
    obtain ⟨others, second⟩ := later.names
    exact ⟨names ++ others, by rw [second, first, Interner.internAll, Interner.internAll,
      Interner.internAll, List.foldl_append]⟩
  callSites := by
    rw [later.callSites, earlier.callSites, List.append_assoc, callsSince, callsSince,
      ← List.map_append, range'_span earlier.sites.grown.callCount later.sites.grown.callCount]
    rfl

theorem meetAll (draft : Draft) (names : List String) : draft.Extended (draft.meetAll names) where
  sites := .nothing
  names := ⟨names, rfl⟩
  callSites := (refl draft).callSites

theorem meet (draft : Draft) (name : String) : draft.Extended (draft.meet name) :=
  meetAll draft [name]

theorem addCall (draft : Draft) : draft.Extended draft.addCall where
  sites := .call .nothing
  names := ⟨[], rfl⟩
  callSites := by simp [Draft.addCall, Sites.addCall, callsSince, Arena.next]

theorem addField (draft : Draft) : draft.Extended draft.addField where
  sites := .field .nothing
  names := ⟨[], rfl⟩
  callSites := (refl draft).callSites

theorem addControl (draft : Draft) : draft.Extended draft.addControl where
  sites := .control .nothing
  names := ⟨[], rfl⟩
  callSites := (refl draft).callSites

/-- The send sites of a draft that started out with none listed are all those added since. -/
theorem callSites_of_none (extended : before.Extended after) (none : before.callSites = #[]) :
    after.callSites.toList = before.callsSince after := by
  rw [extended.callSites, none, List.nil_append]

end Extended

end Draft

/-- Whether a preparation does nothing but add names and sites, however it ends. -/
def Preparing.Grows {Answer : Type} (preparation : Preparing Answer) : Prop :=
  ∀ draft, match preparation draft with
    | .ok _ after => draft.Extended after
    | .error _ after => draft.Extended after

/-- A preparation that only meets names.  Which ones, and how it ends, does not depend on the
draft. -/
inductive Preparing.Naming {Answer : Type} (preparation : Preparing Answer) : Prop
  | ok (names : List String) (answer : Answer)
      (comes : ∀ draft, preparation draft = .ok answer (draft.meetAll names))
  | error (names : List String) (flaw : BodyFlaw)
      (comes : ∀ draft, preparation draft = .error flaw (draft.meetAll names))

namespace Preparing.Grows

variable {Answer Next : Type}

theorem pure (answer : Answer) : Grows (Pure.pure answer) :=
  fun draft => .refl draft

theorem throw (flaw : BodyFlaw) : Grows (MonadExcept.throw flaw : Preparing Answer) :=
  fun draft => .refl draft

/-- What stands after a flaw is not reached. -/
theorem throw_bind (flaw : BodyFlaw) (next : Answer → Preparing Next) :
    Grows ((MonadExcept.throw flaw : Preparing Answer) >>= next) :=
  fun draft => .refl draft

theorem bind {preparation : Preparing Answer} {next : Answer → Preparing Next}
    (grows : preparation.Grows) (grow : ∀ answer, (next answer).Grows) :
    (preparation >>= next).Grows := by
  intro draft
  have first := grows draft
  simp only [Bind.bind, EStateM.bind]
  generalize preparation draft = result at first
  cases result with
  | error flaw between => exact first
  | ok answer between =>
      have second := grow answer between
      dsimp only
      generalize next answer between = final at second
      cases final with
      | error flaw after => exact first.trans second
      | ok answer after => exact first.trans second

theorem meet (name : String) : (Preparing.meet name).Grows :=
  fun draft => .meet draft name

theorem callSite : Preparing.callSite.Grows :=
  fun draft => .addCall draft

theorem fieldSite : Preparing.fieldSite.Grows :=
  fun draft => .addField draft

theorem controlSite : Preparing.controlSite.Grows :=
  fun draft => .addControl draft

theorem check (surroundings : Surroundings) (scopes : List Scope) (address : Source.Variable) :
    (address.check surroundings scopes).Grows := by
  unfold Source.Variable.check
  split
  · exact throw _
  · exact pure _

end Preparing.Grows

namespace Preparing.Naming

variable {Answer Next : Type}

theorem pure (answer : Answer) : Naming (Pure.pure answer) :=
  .ok [] answer fun _ => rfl

theorem throw (flaw : BodyFlaw) : Naming (MonadExcept.throw flaw : Preparing Answer) :=
  .error [] flaw fun _ => rfl

theorem meet (name : String) : (Preparing.meet name).Naming :=
  .ok [name] () fun _ => rfl

theorem bind {preparation : Preparing Answer} {next : Answer → Preparing Next}
    (naming : preparation.Naming) (continued : ∀ answer, (next answer).Naming) :
    (preparation >>= next).Naming := by
  cases naming with
  | error names flaw comes =>
      exact .error names flaw fun draft => by simp only [Bind.bind, EStateM.bind, comes]
  | ok names answer comes =>
      cases continued answer with
      | ok others answer comesThen =>
          exact .ok (names ++ others) answer fun draft => by
            simp only [Bind.bind, EStateM.bind, comes, comesThen, draft.meetAll_append]
      | error others flaw comesThen =>
          exact .error (names ++ others) flaw fun draft => by
            simp only [Bind.bind, EStateM.bind, comes, comesThen, draft.meetAll_append]

theorem grows {preparation : Preparing Answer} (naming : preparation.Naming) :
    preparation.Grows := by
  intro draft
  cases naming with
  | ok names answer comes =>
      rw [comes]
      exact .meetAll draft names
  | error names flaw comes =>
      rw [comes]
      exact .meetAll draft names

end Preparing.Naming

/-- Two preparations in a row succeed if both do. -/
theorem Preparing.ok_of_bind {Answer Next : Type} {preparation : Preparing Answer}
    {next : Answer → Preparing Next} {draft after : Draft} {result : Next}
    (success : (preparation >>= next) draft = .ok result after) :
    ∃ answer between, preparation draft = .ok answer between ∧
      next answer between = .ok result after := by
  simp only [Bind.bind, EStateM.bind] at success
  generalize found : preparation draft = first at success
  cases first with
  | error flaw between => cases success
  | ok answer between => exact ⟨answer, between, rfl, success⟩

/-- Two preparations in a row succeed if the first one does and the second one after it. -/
theorem Preparing.bind_ok {Answer Next : Type} {preparation : Preparing Answer}
    {next : Answer → Preparing Next} {draft between : Draft} {answer : Answer}
    (first : preparation draft = .ok answer between) :
    (preparation >>= next) draft = next answer between := by
  simp only [Bind.bind, EStateM.bind, first]

theorem Source.Variable.ok_of_check {surroundings : Surroundings} {scopes : List Scope}
    {address : Source.Variable} {draft after : Draft}
    (success : address.check surroundings scopes draft = .ok () after) :
    address.flaw? surroundings scopes = none ∧ after = draft := by
  unfold check at success
  cases found : address.flaw? surroundings scopes with
  | some flaw =>
      rw [found] at success
      cases success
  | none =>
      rw [found] at success
      cases success
      exact ⟨rfl, rfl⟩

namespace Source.Literal

mutual

/-- The preparation of a literal only meets its symbols. -/
theorem prepare_naming (literal : Literal) : literal.prepare.Naming := by
  cases literal with
  | symbol text => exact .bind (.meet text) fun _ => .pure _
  | string text => exact .pure _
  | double value => exact .pure _
  | integer value => exact .pure _
  | big digits =>
      unfold prepare
      split
      · exact .pure _
      · exact .throw _
  | array items => exact .bind (prepareAll_naming items) fun _ => .pure _

theorem prepareAll_naming (items : List Literal) : (prepareAll items).Naming := by
  cases items with
  | nil => exact .pure _
  | cons item rest =>
      exact .bind (prepare_naming item) fun _ => .bind (prepareAll_naming rest) fun _ => .pure _

end

/-- What the preparation of a literal leaves behind if it succeeds. -/
theorem met_of_prepare {literal : Literal} {draft after : Draft} {datum : Datum}
    (success : literal.prepare draft = .ok datum after) :
    ∃ names, after = draft.meetAll names := by
  cases prepare_naming literal with
  | ok names answer comes =>
      cases (comes draft).symm.trans success
      exact ⟨names, rfl⟩
  | error names flaw comes => cases (comes draft).symm.trans success

end Source.Literal

namespace Source.Expression

mutual

theorem prepare_grows {surroundings : Surroundings} {scopes : List Scope}
    (expression : Expression) : (expression.prepare surroundings scopes).Grows := by
  cases expression with
  | self => exact .pure _
  | global name => exact .bind (.meet name) fun _ => .pure _
  | read address =>
      refine .bind (.check _ _ _) fun _ => ?_
      cases address with
      | slot slot => exact .pure _
      | field index => exact .bind .fieldSite fun _ => .pure _
  | write address value =>
      refine .bind (.check _ _ _) fun _ => .bind (prepare_grows value) fun _ => ?_
      cases address with
      | slot slot => exact .pure _
      | field index => exact .bind .fieldSite fun _ => .pure _
  | send receiver selector operands =>
      rw [prepare]
      split
      · exact .throw_bind _ _
      · refine .bind (prepare_grows receiver) fun _ => .bind (prepareAll_grows operands) fun _ =>
          .bind (.meet selector) fun _ => .bind .callSite fun _ => ?_
        split
        · exact .bind .controlSite fun _ => .pure _
        · exact .pure _
  | superSend selector operands =>
      unfold prepare
      split
      · exact .throw _
      · exact .bind (prepareAll_grows operands) fun _ => .bind (.meet selector) fun _ =>
          .bind .callSite fun _ => .pure _
  | answer value span => exact .bind (prepare_grows value) fun _ => .pure _
  | literal value => exact .bind (Literal.prepare_naming value).grows fun _ => .pure _
  | block parameters temporaries body =>
      rw [prepare]
      split
      · exact .throw_bind _ _
      · exact .bind (prepareAll_grows body) fun _ => .pure _

theorem prepareAll_grows {surroundings : Surroundings} {scopes : List Scope}
    (expressions : List Expression) : (prepareAll surroundings scopes expressions).Grows := by
  cases expressions with
  | nil => exact .pure _
  | cons expression rest =>
      exact .bind (prepare_grows expression) fun _ => .bind (prepareAll_grows rest) fun _ =>
        .pure _

end

/-- What a successful preparation of an expression comes to, in terms of the preparations of its
parts. -/
inductive Prepared (surroundings : Surroundings) (scopes : List Scope) (draft : Draft) :
    Expression → Code → Draft → Prop
  | self : Prepared surroundings scopes draft .self .self draft
  | readSlot {slot : Slot} : (Variable.slot slot).flaw? surroundings scopes = none →
      Prepared surroundings scopes draft (.read (.slot slot)) (.read slot) draft
  | readField {index : Nat} : (Variable.field index).flaw? surroundings scopes = none →
      Prepared surroundings scopes draft (.read (.field index))
        (.readField draft.fields.next index) draft.addField
  | writeSlot {slot : Slot} {value : Expression} {code : Code} {after : Draft} :
      (Variable.slot slot).flaw? surroundings scopes = none →
      value.prepare surroundings scopes draft = .ok code after →
      Prepared surroundings scopes draft (.write (.slot slot) value) (.write slot code) after
  | writeField {index : Nat} {value : Expression} {code : Code} {after : Draft} :
      (Variable.field index).flaw? surroundings scopes = none →
      value.prepare surroundings scopes draft = .ok code after →
      Prepared surroundings scopes draft (.write (.field index) value)
        (.writeField after.fields.next index code) after.addField
  | global {name : String} :
      Prepared surroundings scopes draft (.global name) (.global name) (draft.meet name)
  | send {receiver : Expression} {selector : Selector} {operands : List Expression}
      {code : Code} {codes : List Code} {between after : Draft} :
      operands.length = selector.arity →
      receiver.prepare surroundings scopes draft = .ok code between →
      prepareAll surroundings scopes operands between = .ok codes after →
      (if surroundings.specializeControl then ControlMessage.ofSelector? selector else none) =
        none →
      Prepared surroundings scopes draft (.send receiver selector operands)
        (.send after.calls.next selector code codes) (after.meet selector).addCall
  | control {receiver : Expression} {selector : Selector} {operands : List Expression}
      {code : Code} {codes : List Code} {between after : Draft} {message : ControlMessage} :
      operands.length = selector.arity →
      receiver.prepare surroundings scopes draft = .ok code between →
      prepareAll surroundings scopes operands between = .ok codes after →
      (if surroundings.specializeControl then ControlMessage.ofSelector? selector else none) =
        some message →
      Prepared surroundings scopes draft (.send receiver selector operands)
        (.control after.controls.next message after.calls.next selector code codes)
        (after.meet selector).addCall.addControl
  | superSend {selector : Selector} {operands : List Expression} {codes : List Code}
      {after : Draft} {origin : ClassRef} :
      surroundings.superclass = some origin →
      prepareAll surroundings scopes operands draft = .ok codes after →
      Prepared surroundings scopes draft (.superSend selector operands)
        (.superSend after.calls.next origin selector codes) (after.meet selector).addCall
  | answer {value : Expression} {span : Span} {code : Code} {after : Draft} :
      value.prepare surroundings scopes draft = .ok code after →
      Prepared surroundings scopes draft (.answer value span) (.answer code span) after
  | literal {value : Literal} {datum : Datum} {names : List String} :
      value.prepare draft = .ok datum (draft.meetAll names) →
      Prepared surroundings scopes draft (.literal value) (.literal datum) (draft.meetAll names)
  | block {parameters temporaries : Nat} {body : List Expression} {codes : List Code}
      {after : Draft} : parameters ≤ blockParameterLimit →
      prepareAll surroundings ({ parameters, temporaries } :: scopes) body draft =
        .ok codes after →
      Prepared surroundings scopes draft (.block parameters temporaries body)
        (.block parameters temporaries (anyReachOut 0 body) codes) after

/-- A preparation that succeeds has prepared the parts of the expression. -/
theorem prepared_of_prepare {surroundings : Surroundings} {scopes : List Scope}
    {draft after : Draft} {expression : Expression} {code : Code}
    (success : expression.prepare surroundings scopes draft = .ok code after) :
    Prepared surroundings scopes draft expression code after := by
  cases expression with
  | self =>
      cases success
      exact .self
  | global name =>
      cases success
      exact .global
  | read address =>
      obtain ⟨⟨⟩, _, checked, found⟩ := Preparing.ok_of_bind success
      obtain ⟨unflawed, rfl⟩ := Variable.ok_of_check checked
      cases address with
      | slot slot =>
          cases found
          exact .readSlot unflawed
      | field index =>
          cases found
          exact .readField unflawed
  | write address value =>
      obtain ⟨⟨⟩, _, checked, rest⟩ := Preparing.ok_of_bind success
      obtain ⟨unflawed, rfl⟩ := Variable.ok_of_check checked
      obtain ⟨inner, between, prepared, found⟩ := Preparing.ok_of_bind rest
      cases address with
      | slot slot =>
          cases found
          exact .writeSlot unflawed prepared
      | field index =>
          cases found
          exact .writeField unflawed prepared
  | send receiver selector operands =>
      rw [prepare] at success
      split at success
      · cases success
      · next counted =>
          have counted := Decidable.not_not.mp counted
          obtain ⟨inner, between, prepared, rest⟩ := Preparing.ok_of_bind success
          obtain ⟨inners, final, preparedAll, last⟩ := Preparing.ok_of_bind rest
          obtain ⟨⟨⟩, named, met, rest⟩ := Preparing.ok_of_bind last
          cases met
          obtain ⟨site, allocated, placed, found⟩ := Preparing.ok_of_bind rest
          cases placed
          cases kind : (if surroundings.specializeControl then ControlMessage.ofSelector? selector
            else none) with
          | some message =>
              rw [kind] at found
              cases found
              exact (Prepared.control counted prepared preparedAll kind :)
          | none =>
              rw [kind] at found
              cases found
              exact (Prepared.send counted prepared preparedAll kind :)
  | superSend selector operands =>
      rw [prepare] at success
      cases known : surroundings.superclass with
      | none =>
          rw [known] at success
          cases success
      | some origin =>
          rw [known] at success
          obtain ⟨inners, final, preparedAll, rest⟩ := Preparing.ok_of_bind success
          obtain ⟨⟨⟩, named, met, found⟩ := Preparing.ok_of_bind rest
          cases met
          cases found
          exact (Prepared.superSend known preparedAll :)
  | answer value span =>
      obtain ⟨inner, between, prepared, found⟩ := Preparing.ok_of_bind success
      cases found
      exact .answer prepared
  | literal value =>
      obtain ⟨datum, between, prepared, found⟩ := Preparing.ok_of_bind success
      cases found
      obtain ⟨names, rfl⟩ := Literal.met_of_prepare prepared
      exact .literal prepared
  | block parameters temporaries body =>
      rw [prepare] at success
      split at success
      · cases success
      · next few =>
          obtain ⟨inners, final, preparedAll, found⟩ := Preparing.ok_of_bind success
          cases found
          exact .block (Nat.le_of_not_lt few) preparedAll

/-- Expressions one after the other are prepared if each of them is. -/
theorem prepared_of_prepareAll {surroundings : Surroundings} {scopes : List Scope}
    {draft after : Draft} {expression : Expression} {rest : List Expression} {codes : List Code}
    (success : prepareAll surroundings scopes (expression :: rest) draft = .ok codes after) :
    ∃ code between others, codes = code :: others ∧
      expression.prepare surroundings scopes draft = .ok code between ∧
      prepareAll surroundings scopes rest between = .ok others after := by
  obtain ⟨code, between, prepared, remaining⟩ := Preparing.ok_of_bind success
  obtain ⟨others, final, preparedAll, found⟩ := Preparing.ok_of_bind remaining
  cases found
  exact ⟨code, between, others, rfl, prepared, preparedAll⟩

end Source.Expression

/-- Sites were allocated for some nodes, each for one node only. -/
structure Sites.Furnishes (before after : Sites) (superclass : Option ClassRef)
    (nodes : List OutlineNode) : Prop where
  calls : ∀ node ∈ nodes, ∀ site, node.callSite? = some site →
    before.calls.size ≤ site.index ∧ site.index < after.calls.size
  fields : ∀ node ∈ nodes, ∀ site, node.fieldSite? = some site →
    before.fields.size ≤ site.index ∧ site.index < after.fields.size
  callsApart : ∀ node ∈ nodes, ∀ other ∈ nodes, ∀ site,
    node.callSite? = some site → other.callSite? = some site → node = other
  fieldsApart : ∀ node ∈ nodes, ∀ other ∈ nodes, ∀ site,
    node.fieldSite? = some site → other.fieldSite? = some site → node = other
  origins : ∀ node ∈ nodes, ∀ origin, node.origin? = some origin → superclass = some origin
  named : ∀ node ∈ nodes, node.Named

namespace Sites.Furnishes

variable {before between after : Sites} {superclass : Option ClassRef}
  {nodes others : List OutlineNode}

theorem nil (before after : Sites) (superclass : Option ClassRef) :
    before.Furnishes after superclass [] where
  calls := fun _ member => by cases member
  fields := fun _ member => by cases member
  callsApart := fun _ member => by cases member
  fieldsApart := fun _ member => by cases member
  origins := fun _ member => by cases member
  named := fun _ member => by cases member

/-- One node, for which the last sites were allocated. -/
theorem single {node : OutlineNode}
    (call : ∀ site, node.callSite? = some site →
      before.calls.size ≤ site.index ∧ site.index < after.calls.size)
    (field : ∀ site, node.fieldSite? = some site →
      before.fields.size ≤ site.index ∧ site.index < after.fields.size)
    (origin : ∀ origin, node.origin? = some origin → superclass = some origin)
    (named : node.Named) : before.Furnishes after superclass [node] where
  calls := fun _ member => by
    cases List.mem_singleton.mp member
    exact call
  fields := fun _ member => by
    cases List.mem_singleton.mp member
    exact field
  callsApart := fun _ member _ memberToo _ _ _ => by
    rw [List.mem_singleton.mp member, List.mem_singleton.mp memberToo]
  fieldsApart := fun _ member _ memberToo _ _ _ => by
    rw [List.mem_singleton.mp member, List.mem_singleton.mp memberToo]
  origins := fun _ member => by
    cases List.mem_singleton.mp member
    exact origin
  named := fun _ member => by
    cases List.mem_singleton.mp member
    exact named

/-- Nodes furnished one after the other have no sites in common, since the later ones are newer. -/
theorem append (earlier : before.Furnishes between superclass nodes)
    (later : between.Furnishes after superclass others) (grown : before.Grown between)
    (grownToo : between.Grown after) : before.Furnishes after superclass (nodes ++ others) where
  calls := fun node member site found => by
    rcases List.mem_append.mp member with member | member
    · have bounds := earlier.calls node member site found
      exact ⟨bounds.1, Nat.lt_of_lt_of_le bounds.2 grownToo.callCount⟩
    · have bounds := later.calls node member site found
      exact ⟨Nat.le_trans grown.callCount bounds.1, bounds.2⟩
  fields := fun node member site found => by
    rcases List.mem_append.mp member with member | member
    · have bounds := earlier.fields node member site found
      exact ⟨bounds.1, Nat.lt_of_lt_of_le bounds.2 grownToo.fieldCount⟩
    · have bounds := later.fields node member site found
      exact ⟨Nat.le_trans grown.fieldCount bounds.1, bounds.2⟩
  callsApart := fun node member other memberToo site found foundToo => by
    rcases List.mem_append.mp member with member | member <;>
      rcases List.mem_append.mp memberToo with memberToo | memberToo
    · exact earlier.callsApart node member other memberToo site found foundToo
    · exact absurd (earlier.calls node member site found).2
        (Nat.not_lt.mpr (later.calls other memberToo site foundToo).1)
    · exact absurd (earlier.calls other memberToo site foundToo).2
        (Nat.not_lt.mpr (later.calls node member site found).1)
    · exact later.callsApart node member other memberToo site found foundToo
  fieldsApart := fun node member other memberToo site found foundToo => by
    rcases List.mem_append.mp member with member | member <;>
      rcases List.mem_append.mp memberToo with memberToo | memberToo
    · exact earlier.fieldsApart node member other memberToo site found foundToo
    · exact absurd (earlier.fields node member site found).2
        (Nat.not_lt.mpr (later.fields other memberToo site foundToo).1)
    · exact absurd (earlier.fields other memberToo site foundToo).2
        (Nat.not_lt.mpr (later.fields node member site found).1)
    · exact later.fieldsApart node member other memberToo site found foundToo
  origins := fun node member => by
    rcases List.mem_append.mp member with member | member
    · exact earlier.origins node member
    · exact later.origins node member
  named := fun node member => by
    rcases List.mem_append.mp member with member | member
    · exact earlier.named node member
    · exact later.named node member

/-- The order of the nodes does not matter. -/
theorem subset (furnished : before.Furnishes after superclass nodes)
    (inside : ∀ node ∈ others, node ∈ nodes) : before.Furnishes after superclass others where
  calls := fun node member => furnished.calls node (inside node member)
  fields := fun node member => furnished.fields node (inside node member)
  callsApart := fun node member other memberToo =>
    furnished.callsApart node (inside node member) other (inside other memberToo)
  fieldsApart := fun node member other memberToo =>
    furnished.fieldsApart node (inside node member) other (inside other memberToo)
  origins := fun node member => furnished.origins node (inside node member)
  named := fun node member => furnished.named node (inside node member)

/-- A node stands before its operands, but its sites are allocated after theirs. -/
theorem cons {node : OutlineNode} (operands : before.Furnishes between superclass nodes)
    (own : between.Furnishes after superclass [node]) (grown : before.Grown between)
    (grownToo : between.Grown after) : before.Furnishes after superclass (node :: nodes) :=
  (operands.append own grown grownToo).subset fun other member => by
    rcases List.mem_cons.mp member with rfl | member
    · exact List.mem_append_right _ List.mem_cons_self
    · exact List.mem_append_left _ member

/-- The next send site for a node. -/
theorem call {node : OutlineNode} (found : node.callSite? = some before.calls.next)
    (room : before.calls.size < after.calls.size) (none : node.fieldSite? = none)
    (origin : ∀ origin, node.origin? = some origin → superclass = some origin)
    (named : node.Named) : before.Furnishes after superclass [node] := by
  refine single (fun site same => ?_) (fun site same => ?_) origin named
  · cases found.symm.trans same
    exact ⟨Nat.le_refl _, room⟩
  · cases none.symm.trans same

/-- The next field site for a node. -/
theorem field {node : OutlineNode} (found : node.fieldSite? = some before.fields.next)
    (none : node.callSite? = none) (noOrigin : node.origin? = Option.none) (named : node.Named) :
    before.Furnishes before.addField superclass [node] := by
  refine single (fun site same => ?_) (fun site same => ?_) (fun origin same => ?_) named
  · cases none.symm.trans same
  · cases found.symm.trans same
    exact ⟨Nat.le_refl _, by simp [addField, Arena.next]⟩
  · cases noOrigin.symm.trans same

end Sites.Furnishes

theorem ControlMessage.selector_of_ofSelector? {selector : Selector} {message : ControlMessage}
    (found : ControlMessage.ofSelector? selector = some message) : selector = message.selector := by
  have same := List.find?_some found
  exact (beq_iff_eq.mp same).symm

/-- A preparation that succeeds adds sites. -/
theorem Source.Expression.grown_of_prepare {surroundings : Surroundings} {scopes : List Scope}
    {draft after : Draft} {expression : Source.Expression} {code : Code}
    (success : expression.prepare surroundings scopes draft = .ok code after) :
    draft.Grown after := by
  have extended := @prepare_grows surroundings scopes expression draft
  rw [success] at extended
  exact extended.sites.grown

theorem Source.Expression.grown_of_prepareAll {surroundings : Surroundings} {scopes : List Scope}
    {draft after : Draft} {expressions : List Source.Expression} {codes : List Code}
    (success : prepareAll surroundings scopes expressions draft = .ok codes after) :
    draft.Grown after := by
  have extended := @prepareAll_grows surroundings scopes expressions draft
  rw [success] at extended
  exact extended.sites.grown

namespace Source.Expression

mutual

theorem prepare_furnishes {surroundings : Surroundings} {scopes : List Scope}
    {draft after : Draft} (expression : Expression) {code : Code}
    (success : expression.prepare surroundings scopes draft = .ok code after) :
    draft.Furnishes after surroundings.superclass code.outline := by
  cases expression with
  | self =>
      cases prepared_of_prepare success with
      | self => exact .nil _ _ _
  | global name =>
      cases prepared_of_prepare success with
      | global => exact .nil _ _ _
  | read address =>
      cases prepared_of_prepare success with
      | readSlot => exact .nil _ _ _
      | readField => exact .field rfl rfl rfl trivial
  | write address value =>
      cases prepared_of_prepare success with
      | writeSlot _ prepared =>
          rw [Code.outline]
          exact prepare_furnishes value prepared
      | writeField _ prepared =>
          exact (prepare_furnishes value prepared).cons (.field rfl rfl rfl trivial)
            (grown_of_prepare prepared) (Sites.grown_addField _)
  | send receiver selector operands =>
      cases prepared_of_prepare success with
      | send _ prepared preparedAll _ =>
          refine ((prepare_furnishes receiver prepared).append
            (prepareAll_furnishes operands preparedAll) (grown_of_prepare prepared)
            (grown_of_prepareAll preparedAll)).cons ?_
            ((grown_of_prepare prepared).trans (grown_of_prepareAll preparedAll))
            (Sites.grown_addCall _)
          exact .call rfl (by simp [Draft.addCall, Draft.meet, Sites.addCall]) rfl
            (fun _ found => by cases found) trivial
      | @control _ _ _ _ _ _ _ message _ prepared preparedAll kind =>
          refine ((prepare_furnishes receiver prepared).append
            (prepareAll_furnishes operands preparedAll) (grown_of_prepare prepared)
            (grown_of_prepareAll preparedAll)).cons ?_
            ((grown_of_prepare prepared).trans (grown_of_prepareAll preparedAll))
            ((Sites.grown_addCall _).trans (Sites.grown_addControl _))
          refine .call rfl
            (by simp [Draft.addCall, Draft.addControl, Draft.meet, Sites.addCall, Sites.addControl])
            rfl (fun _ found => by cases found) ?_
          split at kind
          · exact ControlMessage.selector_of_ofSelector? kind
          · cases kind
  | superSend selector operands =>
      cases prepared_of_prepare success with
      | superSend known preparedAll =>
          refine (prepareAll_furnishes operands preparedAll).cons ?_
            (grown_of_prepareAll preparedAll) (Sites.grown_addCall _)
          exact .call rfl (by simp [Draft.addCall, Draft.meet, Sites.addCall]) rfl
            (fun _ found => by cases found; exact known) trivial
  | answer value span =>
      cases prepared_of_prepare success with
      | answer prepared =>
          rw [Code.outline]
          exact prepare_furnishes value prepared
  | literal value =>
      cases prepared_of_prepare success with
      | literal _ => exact .nil _ _ _
  | block parameters temporaries body =>
      cases prepared_of_prepare success with
      | block _ preparedAll =>
          refine (prepareAll_furnishes body preparedAll).cons ?_
            (grown_of_prepareAll preparedAll) (.refl _)
          exact .single (fun _ found => by cases found) (fun _ found => by cases found)
            (fun _ found => by cases found) trivial

theorem prepareAll_furnishes {surroundings : Surroundings} {scopes : List Scope}
    {draft after : Draft} (expressions : List Expression) {codes : List Code}
    (success : prepareAll surroundings scopes expressions draft = .ok codes after) :
    draft.Furnishes after surroundings.superclass (Code.outlineAll codes) := by
  cases expressions with
  | nil =>
      cases success
      exact .nil _ _ _
  | cons expression rest =>
      obtain ⟨code, between, others, rfl, prepared, preparedAll⟩ := prepared_of_prepareAll success
      exact (prepare_furnishes expression prepared).append
        (prepareAll_furnishes rest preparedAll) (grown_of_prepare prepared)
        (grown_of_prepareAll preparedAll)

end

end Source.Expression

namespace Source.MethodDefinition

/-- What a successful preparation of a method comes to. -/
theorem prepared_of_prepare {definition : MethodDefinition} {surroundings : Surroundings}
    {draft after : Draft} {routine : Routine}
    (success : definition.prepare surroundings draft = .ok routine after) :
    ∃ temporaries body codes, definition.body = .expressions temporaries body ∧
      definition.parameters = definition.selector.arity ∧
      Expression.prepareAll surroundings [{ parameters := definition.parameters, temporaries }] body
        draft = .ok codes after ∧
      routine = {
        parameters := definition.parameters
        temporaries
        body := codes
        callSites := after.callSites.toList } := by
  unfold prepare at success
  cases kind : definition.body with
  | primitive =>
      rw [kind] at success
      cases success
  | expressions temporaries body =>
      rw [kind] at success
      dsimp only at success
      split at success
      · cases success
      · next counted =>
          simp only [Bind.bind, EStateM.bind, EStateM.adaptExcept] at success
          cases prepared : Expression.prepareAll surroundings
              [{ parameters := definition.parameters, temporaries }] body draft with
          | error flaw between =>
              rw [prepared] at success
              cases success
          | ok codes between =>
              rw [prepared] at success
              cases success
              exact ⟨temporaries, body, codes, rfl, Decidable.not_not.mp counted, prepared, rfl⟩

/-- The preparation of a method only adds names and sites, however it ends. -/
theorem prepare_extends (definition : MethodDefinition) (surroundings : Surroundings)
    (draft : Draft) :
    match definition.prepare surroundings draft with
      | .ok _ after => draft.Extended after
      | .error _ after => draft.Extended after := by
  unfold prepare
  cases definition.body with
  | primitive => exact .refl draft
  | expressions temporaries body =>
      dsimp only
      by_cases counted : definition.parameters ≠ definition.selector.arity
      · rw [if_pos counted]
        exact .refl draft
      · rw [if_neg counted]
        have extended := @Expression.prepareAll_grows surroundings
          [{ parameters := definition.parameters, temporaries }] body draft
        simp only [Bind.bind, EStateM.bind, EStateM.adaptExcept]
        generalize Expression.prepareAll surroundings
          [{ parameters := definition.parameters, temporaries }] body draft = result at extended
        cases result with
        | error flaw between => exact extended
        | ok codes between => exact extended

theorem prepare_grows (definition : MethodDefinition) (surroundings : Surroundings)
    (draft : Draft) :
    match definition.prepare surroundings draft with
      | .ok _ after => draft.Grown after
      | .error _ after => draft.Grown after := by
  have extended := definition.prepare_extends surroundings draft
  generalize definition.prepare surroundings draft = result at extended
  cases result with
  | error flaw after => exact extended.sites.grown
  | ok routine after => exact extended.sites.grown

end Source.MethodDefinition

namespace Image

/-- Code whose sites were just allocated can be installed. -/
theorem Fresh.of_furnishes {image : Image} (formed : image.WellFormed) {draft : Draft}
    (grown : image.sites.Grown draft) {superclass : Option ClassRef}
    (known : ∀ origin, superclass = some origin → image.classes.Has origin) {body : List Code}
    (furnished : image.sites.Furnishes draft superclass (Code.outlineAll body)) :
    (image.adopt draft).Fresh body where
  placed := fun node member => {
    call := fun site found => (furnished.calls node member site found).2
    field := fun site found => (furnished.fields node member site found).2
    origin := fun origin found => known origin (furnished.origins node member origin found)
    named := furnished.named node member }
  callsUnused := fun node member site found => by
    have new : ¬ image.sites.calls.Has site :=
      Nat.not_lt.mpr (furnished.calls node member site found).1
    refine ⟨(grown.calls site).trans (Arena.get_of_not_has new), fun other outlined taken => ?_⟩
    exact new ((formed.placed other outlined).call site taken)
  fieldsUnused := fun node member site found => by
    have new : ¬ image.sites.fields.Has site :=
      Nat.not_lt.mpr (furnished.fields node member site found).1
    refine ⟨(grown.fields site).trans (Arena.get_of_not_has new), fun other outlined taken => ?_⟩
    exact new ((formed.placed other outlined).field site taken)
  callsApart := furnished.callsApart
  fieldsApart := furnished.fieldsApart

end Image

end MessageMachine
