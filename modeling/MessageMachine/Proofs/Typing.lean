import MessageMachine.Proofs.Moments
import MessageMachine.Proofs.Reach

/-!
# Code that suits its scopes

Preparation checks the address of every slot against the scopes around it and the index of every
field against the class that holds the method.  What has been checked is a property of the code that
comes out: it suits the class and the scopes it was prepared for.
-/

namespace MessageMachine

/-- Whether the scopes around an expression have a slot. -/
def Slot.InScopes (slot : Slot) (scopes : List Scope) : Prop :=
  ∃ scope, scopes[slot.depth]? = some scope ∧ slot.index < scope.available slot.kind

/-- Whether code suits a class with a number of fields and a superclass, within scopes given
innermost first. -/
inductive Code.Suits (fields : Nat) (superclass : Option ClassRef) : List Scope → Code → Prop
  | self {scopes : List Scope} : Suits fields superclass scopes .self
  | read {scopes : List Scope} {slot : Slot} : slot.InScopes scopes →
      Suits fields superclass scopes (.read slot)
  | write {scopes : List Scope} {slot : Slot} {value : Code} : slot.InScopes scopes →
      Suits fields superclass scopes value → Suits fields superclass scopes (.write slot value)
  | readField {scopes : List Scope} {site : FieldSiteRef} {index : Nat} : index < fields →
      Suits fields superclass scopes (.readField site index)
  | writeField {scopes : List Scope} {site : FieldSiteRef} {index : Nat} {value : Code} :
      index < fields → Suits fields superclass scopes value →
      Suits fields superclass scopes (.writeField site index value)
  | global {scopes : List Scope} {name : String} : Suits fields superclass scopes (.global name)
  | literal {scopes : List Scope} {datum : Datum} : Suits fields superclass scopes (.literal datum)
  | block {scopes : List Scope} {parameters temporaries : Nat} {captures : Bool}
      {body : List Code} : parameters ≤ blockParameterLimit →
      (captures = false → Code.anyReachOut 0 body = false) →
      (∀ code ∈ body, Suits fields superclass ({ parameters, temporaries } :: scopes) code) →
      Suits fields superclass scopes (.block parameters temporaries captures body)
  | send {scopes : List Scope} {site : CallSiteRef} {selector : Selector} {receiver : Code}
      {operands : List Code} :
      (∀ code ∈ receiver :: operands, Suits fields superclass scopes code) →
      Suits fields superclass scopes (.send site selector receiver operands)
  | superSend {scopes : List Scope} {site : CallSiteRef} {origin : ClassRef} {selector : Selector}
      {operands : List Code} : superclass = some origin →
      (∀ code ∈ operands, Suits fields superclass scopes code) →
      Suits fields superclass scopes (.superSend site origin selector operands)
  | control {scopes : List Scope} {controlSite : ControlSiteRef} {message : ControlMessage}
      {site : CallSiteRef} {selector : Selector} {receiver : Code} {operands : List Code} :
      (∀ code ∈ receiver :: operands, Suits fields superclass scopes code) →
      Suits fields superclass scopes
        (.control controlSite message site selector receiver operands)
  | answer {scopes : List Scope} {value : Code} {span : Span} :
      Suits fields superclass scopes value → Suits fields superclass scopes (.answer value span)

namespace Code

/-- The parts of an expression suit what the expression suits. -/
theorem Suits.parts {fields : Nat} {superclass : Option ClassRef} {scopes : List Scope}
    {code : Code} (suits : code.Suits fields superclass scopes) :
    ∀ part ∈ code.parts, part.Suits fields superclass scopes := by
  cases suits with
  | write _ value => exact List.forall_mem_singleton.mpr value
  | writeField _ value => exact List.forall_mem_singleton.mpr value
  | answer value => exact List.forall_mem_singleton.mpr value
  | send all => exact all
  | superSend _ all => exact all
  | control all => exact all
  | self | read | readField | global | literal | block => exact List.forall_mem_nil _

theorem anyReachOut_of_mem {depth : Nat} {code : Code} {codes : List Code} (member : code ∈ codes)
    (reaches : code.reachesOut depth = true) : Code.anyReachOut depth codes = true := by
  induction codes with
  | nil => cases member
  | cons first rest inductionHypothesis =>
      rw [Code.anyReachOut, Bool.or_eq_true]
      rcases List.mem_cons.mp member with rfl | later
      · exact Or.inl reaches
      · exact Or.inr (inductionHypothesis later)

/-- An expression needs what its parts need. -/
theorem reachesOut_of_part {depth : Nat} {code part : Code} (member : part ∈ code.parts)
    (reaches : part.reachesOut depth = true) : code.reachesOut depth = true := by
  have any := anyReachOut_of_mem member reaches
  cases code with
  | write slot value =>
      simp only [parts, Code.anyReachOut, Bool.or_false] at any
      simp only [Code.reachesOut, any, Bool.or_true]
  | send site selector receiver operands =>
      simpa only [Code.reachesOut, parts, Code.anyReachOut] using any
  | control controlSite message site selector receiver operands =>
      simpa only [Code.reachesOut, parts, Code.anyReachOut] using any
  | writeField | superSend | answer => rfl
  | self | read | readField | global | literal | block => cases member

end Code

namespace Source

/-- A slot address without a flaw is that of a slot. -/
theorem Variable.inScopes_of_flaw? {surroundings : Surroundings} {scopes : List Scope} {slot : Slot}
    (sound : (Variable.slot slot).flaw? surroundings scopes = none) : slot.InScopes scopes := by
  unfold Variable.flaw? at sound
  cases found : scopes[slot.depth]? with
  | none =>
      simp only [found] at sound
      cases sound
  | some scope =>
      simp only [found] at sound
      split at sound
      · next inside => exact ⟨scope, found, inside⟩
      · cases sound

theorem Variable.lt_of_flaw? {surroundings : Surroundings} {scopes : List Scope} {index : Nat}
    (sound : (Variable.field index).flaw? surroundings scopes = none) :
    index < surroundings.fields := by
  simp only [Variable.flaw?] at sound
  split at sound
  · assumption
  · cases sound

namespace Expression

mutual

/-- Prepared code suits what it was prepared for. -/
theorem suits_of_prepare {surroundings : Surroundings} {scopes : List Scope}
    {draft after : Draft} (expression : Expression) {code : Code}
    (success : expression.prepare surroundings scopes draft = .ok code after) :
    code.Suits surroundings.fields surroundings.superclass scopes := by
  cases expression with
  | self =>
      cases prepared_of_prepare success with
      | self => exact .self
  | global name =>
      cases prepared_of_prepare success with
      | global => exact .global
  | read address =>
      cases prepared_of_prepare success with
      | readSlot sound => exact .read (Variable.inScopes_of_flaw? sound)
      | readField sound => exact .readField (Variable.lt_of_flaw? sound)
  | write address value =>
      cases prepared_of_prepare success with
      | writeSlot sound prepared =>
          exact .write (Variable.inScopes_of_flaw? sound) (suits_of_prepare value prepared)
      | writeField sound prepared =>
          exact .writeField (Variable.lt_of_flaw? sound) (suits_of_prepare value prepared)
  | send receiver selector operands =>
      cases prepared_of_prepare success with
      | send _ prepared preparedAll _ =>
          exact .send (List.forall_mem_cons.mpr
            ⟨suits_of_prepare receiver prepared, suits_of_prepareAll operands preparedAll⟩)
      | control _ prepared preparedAll _ =>
          exact .control (List.forall_mem_cons.mpr
            ⟨suits_of_prepare receiver prepared, suits_of_prepareAll operands preparedAll⟩)
  | superSend selector operands =>
      cases prepared_of_prepare success with
      | superSend origin preparedAll =>
          exact .superSend origin (suits_of_prepareAll operands preparedAll)
  | answer value span =>
      cases prepared_of_prepare success with
      | answer prepared => exact .answer (suits_of_prepare value prepared)
  | literal value =>
      cases prepared_of_prepare success with
      | literal _ => exact .literal
  | block parameters temporaries body =>
      cases prepared_of_prepare success with
      | block few preparedAll =>
          refine .block few (fun needless => ?_) (suits_of_prepareAll body preparedAll)
          rw [anyReachOut_of_prepareAll body preparedAll 0]
          exact needless

theorem suits_of_prepareAll {surroundings : Surroundings} {scopes : List Scope}
    {draft after : Draft} (expressions : List Expression) {codes : List Code}
    (success : prepareAll surroundings scopes expressions draft = .ok codes after) :
    ∀ code ∈ codes, code.Suits surroundings.fields surroundings.superclass scopes := by
  cases expressions with
  | nil =>
      cases success
      exact List.forall_mem_nil _
  | cons expression rest =>
      obtain ⟨code, between, others, rfl, prepared, preparedAll⟩ := prepared_of_prepareAll success
      exact List.forall_mem_cons.mpr
        ⟨suits_of_prepare expression prepared, suits_of_prepareAll rest preparedAll⟩

end

end Expression

/-- The body of a prepared method suits the class and the slots of the method. -/
theorem MethodDefinition.suits_of_prepare {definition : MethodDefinition}
    {surroundings : Surroundings} {draft after : Draft} {routine : Routine}
    (success : definition.prepare surroundings draft = .ok routine after) :
    ∀ code ∈ routine.body, code.Suits surroundings.fields surroundings.superclass
      [{ parameters := routine.parameters, temporaries := routine.temporaries }] := by
  obtain ⟨temporaries, body, codes, -, -, preparedAll, rfl⟩ := prepared_of_prepare success
  exact Expression.suits_of_prepareAll body preparedAll

end Source

end MessageMachine
