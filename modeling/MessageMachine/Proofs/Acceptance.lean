import MessageMachine.Machine.Definition
import MessageMachine.Proofs.Typing

/-!
# What preparation accepts

Preparation goes through a method once, with the scopes around each expression at hand, and stops at
the first flaw.  What it accepts can be said without following it.  An expression stands somewhere
in the method, within certain scopes, and is sound there or not; a method is accepted exactly if
every expression that stands in it is sound where it stands.  The code that comes out is the source
again, node for node, with sites put in and the digits of big integers read.
-/

namespace MessageMachine

/-- Of two lists that are related member by member, each member is related to one of the other
list. -/
theorem related_of_forall₂ {First Second : Type} {related : First → Second → Prop}
    {firsts : List First} {seconds : List Second} (all : List.Forall₂ related firsts seconds) :
    (∀ first ∈ firsts, ∃ second ∈ seconds, related first second) ∧
      ∀ second ∈ seconds, ∃ first ∈ firsts, related first second := by
  induction all with
  | nil => exact ⟨nofun, nofun⟩
  | @cons first second _ _ here _ inductionHypothesis =>
      obtain ⟨forward, backward⟩ := inductionHypothesis
      refine ⟨List.forall_mem_cons.mpr ⟨⟨second, List.mem_cons_self, here⟩, ?_⟩,
        List.forall_mem_cons.mpr ⟨⟨first, List.mem_cons_self, here⟩, ?_⟩⟩
      · intro other member
        obtain ⟨counterpart, belongs, found⟩ := forward other member
        exact ⟨counterpart, List.mem_cons_of_mem _ belongs, found⟩
      · intro other member
        obtain ⟨counterpart, belongs, found⟩ := backward other member
        exact ⟨counterpart, List.mem_cons_of_mem _ belongs, found⟩

namespace Source

/-- The expressions that stand directly in an expression, within the same scopes. -/
def Expression.parts : Expression → List Expression
  | .write _ value => [value]
  | .send receiver _ operands => receiver :: operands
  | .superSend _ operands => operands
  | .answer value _ => [value]
  | _ => []

/-- Whether an expression stands among some expressions or anywhere in them, and within which
scopes, given innermost first. -/
inductive Stands : List Scope → List Expression → List Scope → Expression → Prop
  | here {scopes : List Scope} {body : List Expression} {expression : Expression} :
      expression ∈ body → Stands scopes body scopes expression
  | part {scopes around : List Scope} {body : List Expression} {outer expression : Expression} :
      outer ∈ body → Stands scopes outer.parts around expression →
      Stands scopes body around expression
  | block {scopes around : List Scope} {parameters temporaries : Nat}
      {body inside : List Expression} {expression : Expression} :
      Expression.block parameters temporaries inside ∈ body →
      Stands ({ parameters, temporaries } :: scopes) inside around expression →
      Stands scopes body around expression

/-- Whether the digits of a big integer stand in a literal, in arrays of whatever depth. -/
inductive Literal.HasDigits : Literal → String → Prop
  | big {digits : String} : HasDigits (.big digits) digits
  | item {items : List Literal} {item : Literal} {digits : String} : item ∈ items →
      HasDigits item digits → HasDigits (.array items) digits

/-- Whether a variable address leads to a field or to a slot of a scope. -/
def Variable.Sound (fields : Nat) (scopes : List Scope) : Variable → Prop
  | .field index => index < fields
  | .slot address => address.InScopes scopes

/-- Whether there is nothing wrong with an expression, apart from its parts, in a method of a class
with a number of fields and a superclass. -/
def Expression.Sound (fields : Nat) (superclass : Option ClassRef) (scopes : List Scope) :
    Expression → Prop
  | .read address => address.Sound fields scopes
  | .write address _ => address.Sound fields scopes
  | .send _ selector operands => operands.length = selector.arity
  | .superSend _ _ => superclass.isSome
  | .literal value => ∀ digits, value.HasDigits digits → ∃ number, Integer.read digits = .ok number
  | .block parameters _ _ => parameters ≤ 2
  | _ => True

/-- Whether every expression that stands in some expressions is sound where it stands. -/
def AllSound (fields : Nat) (superclass : Option ClassRef) (scopes : List Scope)
    (body : List Expression) : Prop :=
  ∀ around expression, Stands scopes body around expression →
    expression.Sound fields superclass around

/-- Literals and what they stand for: the same, with the digits of big integers read. -/
inductive Literal.Denotes : Literal → Datum → Prop
  | symbol {text : String} : Denotes (.symbol text) (.symbol text)
  | string {text : String} : Denotes (.string text) (.string text)
  | double {value : Double} : Denotes (.double value) (.double value)
  | integer {value : Int64} : Denotes (.integer value) (.integer value)
  | big {digits : String} {number : Int} : Integer.read digits = .ok number →
      Denotes (.big digits) (.big number)
  | array {items : List Literal} {data : List Datum} : List.Forall₂ Denotes items data →
      Denotes (.array items) (.array data)

/-- Expressions and their prepared form, node for node, whatever the sites are. -/
inductive Expression.Becomes (superclass : Option ClassRef) (specializeControl : Bool) :
    Expression → Code → Prop
  | self : Becomes superclass specializeControl .self .self
  | readSlot {slot : Slot} :
      Becomes superclass specializeControl (.read (.slot slot)) (.read slot)
  | readField {site : FieldSiteRef} {index : Nat} :
      Becomes superclass specializeControl (.read (.field index)) (.readField site index)
  | writeSlot {slot : Slot} {value : Expression} {code : Code} :
      Becomes superclass specializeControl value code →
      Becomes superclass specializeControl (.write (.slot slot) value) (.write slot code)
  | writeField {site : FieldSiteRef} {index : Nat} {value : Expression} {code : Code} :
      Becomes superclass specializeControl value code →
      Becomes superclass specializeControl (.write (.field index) value)
        (.writeField site index code)
  | global {name : String} : Becomes superclass specializeControl (.global name) (.global name)
  /-- A send stays a send unless it is specialized. -/
  | send {site : CallSiteRef} {selector : Selector} {receiver : Expression}
      {operands : List Expression} {code : Code} {codes : List Code} :
      ¬ (specializeControl = true ∧ ∃ message : ControlMessage, message.selector = selector) →
      Becomes superclass specializeControl receiver code →
      List.Forall₂ (Becomes superclass specializeControl) operands codes →
      Becomes superclass specializeControl (.send receiver selector operands)
        (.send site selector code codes)
  | control {controlSite : ControlSiteRef} {message : ControlMessage} {site : CallSiteRef}
      {receiver : Expression} {operands : List Expression} {code : Code} {codes : List Code} :
      specializeControl = true → Becomes superclass specializeControl receiver code →
      List.Forall₂ (Becomes superclass specializeControl) operands codes →
      Becomes superclass specializeControl (.send receiver message.selector operands)
        (.control controlSite message site message.selector code codes)
  | superSend {site : CallSiteRef} {origin : ClassRef} {selector : Selector}
      {operands : List Expression} {codes : List Code} : superclass = some origin →
      List.Forall₂ (Becomes superclass specializeControl) operands codes →
      Becomes superclass specializeControl (.superSend selector operands)
        (.superSend site origin selector codes)
  | answer {value : Expression} {span : Span} {code : Code} :
      Becomes superclass specializeControl value code →
      Becomes superclass specializeControl (.answer value span) (.answer code span)
  | literal {value : Literal} {datum : Datum} : value.Denotes datum →
      Becomes superclass specializeControl (.literal value) (.literal datum)
  | block {parameters temporaries : Nat} {body : List Expression} {codes : List Code} :
      List.Forall₂ (Becomes superclass specializeControl) body codes →
      Becomes superclass specializeControl (.block parameters temporaries body)
        (.block parameters temporaries (anyReachOut 0 body) codes)

/-- Nothing stands among no expressions. -/
theorem not_stands_nil {scopes around : List Scope} {expression : Expression} :
    ¬ Stands scopes [] around expression := by
  intro stands
  cases stands with
  | here member | part member | block member => cases member

/-- What stands among some expressions is the first of them, or stands in it, or stands among the
others. -/
theorem stands_cons {scopes around : List Scope} {first expression : Expression}
    {rest : List Expression} :
    Stands scopes (first :: rest) around expression ↔
      (around = scopes ∧ expression = first) ∨ Stands scopes first.parts around expression ∨
      (∃ parameters temporaries inside, first = .block parameters temporaries inside ∧
        Stands ({ parameters, temporaries } :: scopes) inside around expression) ∨
      Stands scopes rest around expression := by
  constructor
  · intro stands
    cases stands with
    | here member =>
        rcases List.mem_cons.mp member with same | later
        · exact Or.inl ⟨rfl, same⟩
        · exact Or.inr (Or.inr (Or.inr (.here later)))
    | part member stands =>
        rcases List.mem_cons.mp member with rfl | later
        · exact Or.inr (Or.inl stands)
        · exact Or.inr (Or.inr (Or.inr (.part later stands)))
    | block member stands =>
        rcases List.mem_cons.mp member with same | later
        · exact Or.inr (Or.inr (Or.inl ⟨_, _, _, same.symm, stands⟩))
        · exact Or.inr (Or.inr (Or.inr (.block later stands)))
  · rintro (⟨rfl, rfl⟩ | stands | ⟨_, _, _, rfl, stands⟩ | stands)
    · exact .here List.mem_cons_self
    · exact .part List.mem_cons_self stands
    · exact .block List.mem_cons_self stands
    · cases stands with
      | here member => exact .here (List.mem_cons_of_mem _ member)
      | part member stands => exact .part (List.mem_cons_of_mem _ member) stands
      | block member stands => exact .block (List.mem_cons_of_mem _ member) stands

namespace AllSound

variable {fields : Nat} {superclass : Option ClassRef} {scopes : List Scope}
  {expression : Expression} {body : List Expression}

theorem nil : AllSound fields superclass scopes [] :=
  fun _ _ stands => absurd stands not_stands_nil

theorem sound (all : AllSound fields superclass scopes body) (member : expression ∈ body) :
    expression.Sound fields superclass scopes :=
  all scopes expression (.here member)

theorem parts (all : AllSound fields superclass scopes body) (member : expression ∈ body) :
    AllSound fields superclass scopes expression.parts :=
  fun around inner stands => all around inner (.part member stands)

theorem inside {parameters temporaries : Nat} {inner : List Expression}
    (all : AllSound fields superclass scopes body)
    (member : Expression.block parameters temporaries inner ∈ body) :
    AllSound fields superclass ({ parameters, temporaries } :: scopes) inner :=
  fun around expression stands => all around expression (.block member stands)

theorem of_subset {fewer : List Expression} (all : AllSound fields superclass scopes body)
    (subset : fewer ⊆ body) : AllSound fields superclass scopes fewer := by
  intro around expression stands
  cases stands with
  | here member => exact all.sound (subset member)
  | part member stands => exact all.parts (subset member) around expression stands
  | block member stands => exact all.inside (subset member) around expression stands

/-- An expression in front, with what stands in it, and the others. -/
theorem cons (here : expression.Sound fields superclass scopes)
    (parts : AllSound fields superclass scopes expression.parts)
    (inside : ∀ parameters temporaries inner,
      expression = .block parameters temporaries inner →
      AllSound fields superclass ({ parameters, temporaries } :: scopes) inner)
    (rest : AllSound fields superclass scopes body) :
    AllSound fields superclass scopes (expression :: body) := by
  intro around inner stands
  rcases stands_cons.mp stands with ⟨rfl, rfl⟩ | stands | ⟨_, _, _, same, stands⟩ | stands
  · exact here
  · exact parts around inner stands
  · exact inside _ _ _ same around inner stands
  · exact rest around inner stands

/-- An expression that is no block. -/
theorem single (here : expression.Sound fields superclass scopes)
    (parts : AllSound fields superclass scopes expression.parts)
    (plain : ∀ parameters temporaries inner,
      expression ≠ .block parameters temporaries inner) :
    AllSound fields superclass scopes [expression] :=
  .cons here parts (fun _ _ _ same => absurd same (plain _ _ _)) .nil

theorem block {parameters temporaries : Nat} {inner : List Expression} (few : parameters ≤ 2)
    (inside : AllSound fields superclass ({ parameters, temporaries } :: scopes) inner) :
    AllSound fields superclass scopes [.block parameters temporaries inner] := by
  refine .cons few .nil (fun _ _ _ same => ?_) .nil
  cases same
  exact inside

theorem append {more : List Expression} (all : AllSound fields superclass scopes body)
    (rest : AllSound fields superclass scopes more) :
    AllSound fields superclass scopes (body ++ more) := by
  intro around expression stands
  cases stands with
  | here member =>
      exact (List.mem_append.mp member).elim all.sound rest.sound
  | part member stands =>
      exact (List.mem_append.mp member).elim
        (fun earlier => all.parts earlier around expression stands)
        (fun later => rest.parts later around expression stands)
  | block member stands =>
      exact (List.mem_append.mp member).elim
        (fun earlier => all.inside earlier around expression stands)
        (fun later => rest.inside later around expression stands)

end AllSound

/-- A variable address has no flaw exactly if it leads somewhere. -/
theorem Variable.flaw?_eq_none_iff {surroundings : Surroundings} {scopes : List Scope}
    {address : Variable} :
    address.flaw? surroundings scopes = none ↔ address.Sound surroundings.fields scopes := by
  cases address with
  | field index =>
      refine ⟨Variable.lt_of_flaw?, fun small => ?_⟩
      simp only [flaw?, if_pos (show index < surroundings.fields from small)]
  | slot slot =>
      refine ⟨Variable.inScopes_of_flaw?, ?_⟩
      rintro ⟨scope, found, small⟩
      simp only [flaw?, found, if_pos small]

namespace Literal

mutual

theorem denotes_of_prepare (value : Literal) {draft after : Draft} {datum : Datum}
    (success : value.prepare draft = .ok datum after) : value.Denotes datum := by
  cases value with
  | symbol text =>
      cases success
      exact .symbol
  | string text =>
      cases success
      exact .string
  | double number =>
      cases success
      exact .double
  | integer number =>
      cases success
      exact .integer
  | big digits =>
      rw [prepare] at success
      cases found : Integer.read digits with
      | error flaw =>
          rw [found] at success
          cases success
      | ok number =>
          rw [found] at success
          cases success
          exact .big found
  | array items =>
      rw [prepare] at success
      obtain ⟨data, between, prepared, final⟩ := Preparing.ok_of_bind success
      cases final
      exact .array (denotes_of_prepareAll items prepared)

theorem denotes_of_prepareAll (items : List Literal) {draft after : Draft} {data : List Datum}
    (success : prepareAll items draft = .ok data after) : List.Forall₂ Denotes items data := by
  cases items with
  | nil =>
      cases success
      exact .nil
  | cons item rest =>
      rw [prepareAll] at success
      obtain ⟨datum, between, prepared, continued⟩ := Preparing.ok_of_bind success
      obtain ⟨others, final, preparedAll, finished⟩ := Preparing.ok_of_bind continued
      cases finished
      exact .cons (denotes_of_prepare item prepared) (denotes_of_prepareAll rest preparedAll)

end

/-- What denotes something has digits that can be read. -/
theorem Denotes.readable {value : Literal} {digits : String} (has : value.HasDigits digits)
    {datum : Datum} (denotes : value.Denotes datum) :
    ∃ number, Integer.read digits = .ok number := by
  induction has generalizing datum with
  | big =>
      cases denotes with
      | big found => exact ⟨_, found⟩
  | item member _ inductionHypothesis =>
      cases denotes with
      | array all =>
          obtain ⟨datum, -, denotes⟩ := (related_of_forall₂ all).1 _ member
          exact inductionHypothesis denotes

mutual

/-- A literal whose digits can be read is prepared. -/
theorem prepare_of_readable (value : Literal)
    (readable : ∀ digits, value.HasDigits digits → ∃ number, Integer.read digits = .ok number)
    (draft : Draft) : ∃ datum after, value.prepare draft = .ok datum after := by
  cases value with
  | symbol | string | double | integer => exact ⟨_, _, rfl⟩
  | big digits =>
      obtain ⟨number, found⟩ := readable digits .big
      exact ⟨.big number, draft, by rw [prepare, found]; rfl⟩
  | array items =>
      obtain ⟨data, after, prepared⟩ := prepareAll_of_readable items (fun item member digits has =>
        readable digits (.item member has)) draft
      exact ⟨.array data, after, by rw [prepare, Preparing.bind_ok prepared]; rfl⟩

theorem prepareAll_of_readable (items : List Literal)
    (readable : ∀ item ∈ items, ∀ digits, item.HasDigits digits →
      ∃ number, Integer.read digits = .ok number) (draft : Draft) :
    ∃ data after, prepareAll items draft = .ok data after := by
  cases items with
  | nil => exact ⟨[], draft, rfl⟩
  | cons item rest =>
      obtain ⟨datum, between, prepared⟩ :=
        prepare_of_readable item (readable item List.mem_cons_self) draft
      obtain ⟨others, after, preparedAll⟩ := prepareAll_of_readable rest (fun other member =>
        readable other (List.mem_cons_of_mem item member)) between
      refine ⟨datum :: others, after, ?_⟩
      rw [prepareAll, Preparing.bind_ok prepared, Preparing.bind_ok preparedAll]
      rfl

end

end Literal

/-- A send is specialized exactly if its selector names a control message and the machine
specializes. -/
theorem control_of_choice {specializeControl : Bool} {selector : Selector}
    {choice : Option ControlMessage}
    (chosen : (if specializeControl then ControlMessage.ofSelector? selector else none) = choice) :
    match choice with
    | some message => specializeControl = true ∧ selector = message.selector
    | none => ¬ (specializeControl = true ∧
        ∃ message : ControlMessage, message.selector = selector) := by
  cases specializeControl with
  | false =>
      cases chosen
      exact fun both => Bool.false_ne_true both.1
  | true =>
      cases choice with
      | some message => exact ⟨rfl, ControlMessage.selector_of_ofSelector? chosen⟩
      | none =>
          rintro ⟨-, message, rfl⟩
          cases chosen.symm.trans (ControlMessage.ofSelector?_selector message)

namespace Expression

variable {surroundings : Surroundings}

mutual

/-- What is accepted is sound. -/
theorem allSound_of_prepare {scopes : List Scope} {draft after : Draft} (expression : Expression)
    {code : Code} (success : expression.prepare surroundings scopes draft = .ok code after) :
    AllSound surroundings.fields surroundings.superclass scopes [expression] := by
  cases expression with
  | self => exact .single trivial .nil fun _ _ _ => Expression.noConfusion
  | global name => exact .single trivial .nil fun _ _ _ => Expression.noConfusion
  | read address =>
      have sound : address.Sound surroundings.fields scopes := by
        cases prepared_of_prepare success with
        | readSlot unflawed => exact Variable.flaw?_eq_none_iff.mp unflawed
        | readField unflawed => exact Variable.flaw?_eq_none_iff.mp unflawed
      exact .single sound .nil fun _ _ _ => Expression.noConfusion
  | write address value =>
      have sound : address.Sound surroundings.fields scopes ∧
          AllSound surroundings.fields surroundings.superclass scopes [value] := by
        cases prepared_of_prepare success with
        | writeSlot unflawed prepared =>
            exact ⟨Variable.flaw?_eq_none_iff.mp unflawed, allSound_of_prepare value prepared⟩
        | writeField unflawed prepared =>
            exact ⟨Variable.flaw?_eq_none_iff.mp unflawed, allSound_of_prepare value prepared⟩
      exact .single sound.1 sound.2 fun _ _ _ => Expression.noConfusion
  | send receiver selector operands =>
      have sound : operands.length = selector.arity ∧
          AllSound surroundings.fields surroundings.superclass scopes (receiver :: operands) := by
        cases prepared_of_prepare success with
        | send counted prepared preparedAll _ | control counted prepared preparedAll _ =>
            exact ⟨counted, (allSound_of_prepare receiver prepared).append
              (allSound_of_prepareAll operands preparedAll)⟩
      exact .single sound.1 sound.2 fun _ _ _ => Expression.noConfusion
  | superSend selector operands =>
      cases prepared_of_prepare success with
      | superSend known preparedAll =>
          refine .single ?_ (allSound_of_prepareAll operands preparedAll)
            fun _ _ _ => Expression.noConfusion
          exact Option.isSome_of_eq_some known
  | answer value span =>
      cases prepared_of_prepare success with
      | answer prepared =>
          exact .single trivial (allSound_of_prepare value prepared)
            fun _ _ _ => Expression.noConfusion
  | literal value =>
      cases prepared_of_prepare success with
      | literal prepared =>
          have denotes := value.denotes_of_prepare prepared
          exact .single (fun digits has => denotes.readable has) .nil
            fun _ _ _ => Expression.noConfusion
  | block parameters temporaries body =>
      cases prepared_of_prepare success with
      | block few preparedAll => exact .block few (allSound_of_prepareAll body preparedAll)

theorem allSound_of_prepareAll {scopes : List Scope} {draft after : Draft}
    (expressions : List Expression) {codes : List Code}
    (success : prepareAll surroundings scopes expressions draft = .ok codes after) :
    AllSound surroundings.fields surroundings.superclass scopes expressions := by
  cases expressions with
  | nil => exact .nil
  | cons expression rest =>
      obtain ⟨code, between, others, -, prepared, preparedAll⟩ := prepared_of_prepareAll success
      exact (allSound_of_prepare expression prepared).append
        (allSound_of_prepareAll rest preparedAll)

end

mutual

/-- What comes out is the source, node for node. -/
theorem becomes_of_prepare {scopes : List Scope} {draft after : Draft} (expression : Expression)
    {code : Code} (success : expression.prepare surroundings scopes draft = .ok code after) :
    expression.Becomes surroundings.superclass surroundings.specializeControl code := by
  cases expression with
  | self =>
      cases prepared_of_prepare success with
      | self => exact .self
  | global name =>
      cases prepared_of_prepare success with
      | global => exact .global
  | read address =>
      cases prepared_of_prepare success with
      | readSlot => exact .readSlot
      | readField => exact .readField
  | write address value =>
      cases prepared_of_prepare success with
      | writeSlot _ prepared => exact .writeSlot (becomes_of_prepare value prepared)
      | writeField _ prepared => exact .writeField (becomes_of_prepare value prepared)
  | send receiver selector operands =>
      cases prepared_of_prepare success with
      | send _ prepared preparedAll chosen =>
          exact .send (control_of_choice chosen) (becomes_of_prepare receiver prepared)
            (becomes_of_prepareAll operands preparedAll)
      | control _ prepared preparedAll chosen =>
          obtain ⟨specialized, rfl⟩ := control_of_choice chosen
          exact .control specialized (becomes_of_prepare receiver prepared)
            (becomes_of_prepareAll operands preparedAll)
  | superSend selector operands =>
      cases prepared_of_prepare success with
      | superSend known preparedAll =>
          exact .superSend known (becomes_of_prepareAll operands preparedAll)
  | answer value span =>
      cases prepared_of_prepare success with
      | answer prepared => exact .answer (becomes_of_prepare value prepared)
  | literal value =>
      cases prepared_of_prepare success with
      | literal prepared => exact .literal (value.denotes_of_prepare prepared)
  | block parameters temporaries body =>
      cases prepared_of_prepare success with
      | block _ preparedAll => exact .block (becomes_of_prepareAll body preparedAll)

theorem becomes_of_prepareAll {scopes : List Scope} {draft after : Draft}
    (expressions : List Expression) {codes : List Code}
    (success : prepareAll surroundings scopes expressions draft = .ok codes after) :
    List.Forall₂ (Becomes surroundings.superclass surroundings.specializeControl) expressions
      codes := by
  cases expressions with
  | nil =>
      cases success
      exact .nil
  | cons expression rest =>
      obtain ⟨code, between, others, rfl, prepared, preparedAll⟩ := prepared_of_prepareAll success
      exact .cons (becomes_of_prepare expression prepared) (becomes_of_prepareAll rest preparedAll)

end

end Expression

theorem Variable.check_of_sound {surroundings : Surroundings} {scopes : List Scope}
    {address : Variable} (sound : address.Sound surroundings.fields scopes) (draft : Draft) :
    address.check surroundings scopes draft = .ok () draft := by
  rw [check, Variable.flaw?_eq_none_iff.mpr sound]
  rfl

namespace Expression

variable {surroundings : Surroundings}

mutual

/-- What is sound is accepted, with whatever sites and names there are. -/
theorem prepare_of_allSound {scopes : List Scope} (expression : Expression)
    (all : AllSound surroundings.fields surroundings.superclass scopes [expression])
    (draft : Draft) :
    ∃ code after, expression.prepare surroundings scopes draft = .ok code after := by
  have sound := all.sound List.mem_cons_self
  have parts := all.parts List.mem_cons_self
  cases expression with
  | self => exact ⟨_, _, rfl⟩
  | global name => exact ⟨_, _, rfl⟩
  | read address =>
      unfold prepare
      rw [Preparing.bind_ok (Variable.check_of_sound sound draft)]
      cases address with
      | slot slot => exact ⟨_, _, rfl⟩
      | field index => exact ⟨_, _, rfl⟩
  | write address value =>
      obtain ⟨code, after, prepared⟩ := prepare_of_allSound value parts draft
      unfold prepare
      rw [Preparing.bind_ok (Variable.check_of_sound sound draft), Preparing.bind_ok prepared]
      cases address with
      | slot slot => exact ⟨_, _, rfl⟩
      | field index => exact ⟨_, _, rfl⟩
  | send receiver selector operands =>
      obtain ⟨code, between, prepared⟩ := prepare_of_allSound receiver
        (parts.of_subset (by simp [Expression.parts])) draft
      obtain ⟨codes, after, preparedAll⟩ := prepareAll_of_allSound operands
        (parts.of_subset (by simp [Expression.parts])) between
      have counted : ¬ operands.length ≠ selector.arity := not_not.mpr sound
      rw [prepare, if_neg counted]
      dsimp only
      rw [Preparing.bind_ok prepared, Preparing.bind_ok preparedAll]
      cases (if surroundings.specializeControl then ControlMessage.ofSelector? selector
        else none) with
      | some message => exact ⟨_, _, rfl⟩
      | none => exact ⟨_, _, rfl⟩
  | superSend selector operands =>
      obtain ⟨origin, known⟩ := Option.isSome_iff_exists.mp sound
      obtain ⟨codes, after, preparedAll⟩ := prepareAll_of_allSound operands parts draft
      simp only [prepare, known]
      rw [Preparing.bind_ok preparedAll]
      exact ⟨_, _, rfl⟩
  | answer value span =>
      obtain ⟨code, after, prepared⟩ := prepare_of_allSound value parts draft
      rw [prepare, Preparing.bind_ok prepared]
      exact ⟨_, _, rfl⟩
  | literal value =>
      obtain ⟨datum, after, prepared⟩ := value.prepare_of_readable sound draft
      rw [prepare, Preparing.bind_ok prepared]
      exact ⟨_, _, rfl⟩
  | block parameters temporaries body =>
      obtain ⟨codes, after, preparedAll⟩ := prepareAll_of_allSound body
        (all.inside List.mem_cons_self) draft
      have few : ¬ blockParameterLimit < parameters := Nat.not_lt.mpr sound
      rw [prepare, if_neg few]
      dsimp only
      rw [Preparing.bind_ok preparedAll]
      exact ⟨_, _, rfl⟩

theorem prepareAll_of_allSound {scopes : List Scope} (expressions : List Expression)
    (all : AllSound surroundings.fields surroundings.superclass scopes expressions)
    (draft : Draft) :
    ∃ codes after, prepareAll surroundings scopes expressions draft = .ok codes after := by
  cases expressions with
  | nil => exact ⟨_, _, rfl⟩
  | cons expression rest =>
      obtain ⟨code, between, prepared⟩ := prepare_of_allSound expression
        (all.of_subset (by simp)) draft
      obtain ⟨codes, after, preparedAll⟩ := prepareAll_of_allSound rest
        (all.of_subset (by simp)) between
      rw [prepareAll, Preparing.bind_ok prepared, Preparing.bind_ok preparedAll]
      exact ⟨_, _, rfl⟩

end

end Expression

/-- A method with as many parameters as its selector asks for and a sound body is accepted. -/
theorem MethodDefinition.prepare_of_allSound {definition : MethodDefinition}
    {surroundings : Surroundings} {temporaries : Nat} {body : List Expression}
    (given : definition.body = .expressions temporaries body)
    (counted : definition.parameters = definition.selector.arity)
    (all : AllSound surroundings.fields surroundings.superclass
      [{ parameters := definition.parameters, temporaries }] body) (draft : Draft) :
    ∃ routine after, definition.prepare surroundings draft = .ok routine after := by
  obtain ⟨codes, after, preparedAll⟩ := Expression.prepareAll_of_allSound body all draft
  unfold prepare
  rw [given]
  dsimp only
  rw [if_neg (not_not.mpr counted)]
  simp only [Bind.bind, EStateM.bind, EStateM.adaptExcept, preparedAll]
  exact ⟨_, _, rfl⟩

end Source

namespace Image

variable {holder : ClassRef} {definition : Source.MethodDefinition} {image : Image}

/-- A method is prepared for a class if its definition is prepared for what surrounds it there. -/
theorem prepareMethod_eq_ok_iff {routine : Routine} {after : Image} :
    prepareMethod holder definition image = .ok routine after ↔
      ∃ draft, definition.prepare (image.surroundings holder definition.selector) image.draft =
        .ok routine draft ∧ after = image.adopt draft := by
  unfold prepareMethod
  cases definition.prepare (image.surroundings holder definition.selector) image.draft with
  | error flaw draft => simp
  | ok found draft =>
      simp only [EStateM.Result.ok.injEq]
      constructor
      · rintro ⟨rfl, rfl⟩
        exact ⟨draft, ⟨rfl, rfl⟩, rfl⟩
      · rintro ⟨_, ⟨rfl, rfl⟩, rfl⟩
        exact ⟨rfl, rfl⟩

end Image

/-- Preparation accepts exactly the methods that are in order, whatever image and class they are
prepared for: the method has as many parameters as its selector asks for, and every expression that
stands in it, in whatever nesting of sends and blocks, is sound where it stands.  What it accepts it
translates faithfully: the code is the source, node for node, control messages being told apart from
other sends exactly if the machine specializes them, and the numbers of slots are the declared
ones. -/
theorem preparation_exact (image : Image) (holder : ClassRef) (selector : Selector)
    (parameters temporaries : Nat) (body : List Source.Expression) :
    let definition : Source.MethodDefinition :=
      { selector, parameters, body := .expressions temporaries body }
    let type := image.classAt holder
    ((∃ routine after, Image.prepareMethod holder definition image = .ok routine after) ↔
      parameters = selector.arity ∧
        ∀ scopes expression,
          Source.Stands [{ parameters, temporaries }] body scopes expression →
          expression.Sound type.fields.length type.superclass scopes) ∧
    ∀ routine after, Image.prepareMethod holder definition image = .ok routine after →
      routine.parameters = parameters ∧ routine.temporaries = temporaries ∧
      List.Forall₂
        (Source.Expression.Becomes type.superclass image.settings.specializeControl)
        body routine.body := by
  intro definition type
  refine ⟨⟨?_, ?_⟩, ?_⟩
  · rintro ⟨routine, after, success⟩
    obtain ⟨draft, prepared, -⟩ := Image.prepareMethod_eq_ok_iff.mp success
    obtain ⟨_, _, codes, given, counted, preparedAll, -⟩ :=
      Source.MethodDefinition.prepared_of_prepare prepared
    cases given
    exact ⟨counted, Source.Expression.allSound_of_prepareAll body preparedAll⟩
  · rintro ⟨counted, all⟩
    have allSound : Source.AllSound (image.surroundings holder selector).fields
        (image.surroundings holder selector).superclass [{ parameters, temporaries }] body := all
    obtain ⟨routine, draft, prepared⟩ : ∃ routine draft,
        definition.prepare (image.surroundings holder selector) image.draft = .ok routine draft :=
      Source.MethodDefinition.prepare_of_allSound rfl counted allSound image.draft
    exact ⟨routine, _, Image.prepareMethod_eq_ok_iff.mpr ⟨draft, prepared, rfl⟩⟩
  · intro routine after success
    obtain ⟨draft, prepared, -⟩ := Image.prepareMethod_eq_ok_iff.mp success
    obtain ⟨_, _, codes, given, -, preparedAll, rfl⟩ :=
      Source.MethodDefinition.prepared_of_prepare prepared
    cases given
    exact ⟨rfl, rfl, Source.Expression.becomes_of_prepareAll body preparedAll⟩

/-- A block in a block in a method, from where an argument is read a number of blocks outside. -/
def nestedReading (depth : Nat) : List Source.Expression :=
  [.answer (.block 1 0 [.block 0 0 [.read (.slot ⟨.argument, depth, 0⟩)]]) ⟨0, 9⟩]

/-- Two blocks outside there is the argument of the method, and three blocks outside there is
nothing. -/
theorem preparation_exact_nested :
    (∃ routine after, Image.prepareMethod ⟨1⟩
      { selector := "run:", parameters := 1, body := .expressions 0 (nestedReading 2) }
      (.initial .plain .standard false) = .ok routine after) ∧
    ¬ ∃ routine after, Image.prepareMethod ⟨1⟩
      { selector := "run:", parameters := 1, body := .expressions 0 (nestedReading 3) }
      (.initial .plain .standard false) = .ok routine after := by
  constructor
  · refine (preparation_exact _ _ _ _ _ _).1.mpr ⟨by decide +kernel, ?_⟩
    refine Source.AllSound.single trivial ?_ fun _ _ _ => Source.Expression.noConfusion
    refine .block (by decide) (.block (by decide) ?_)
    exact .single ⟨⟨1, 0⟩, rfl, by decide⟩ .nil fun _ _ _ => Source.Expression.noConfusion
  · intro accepted
    have all := ((preparation_exact _ _ _ _ _ _).1.mp accepted).2
    have stands : Source.Stands [⟨1, 0⟩] (nestedReading 3) [⟨0, 0⟩, ⟨1, 0⟩, ⟨1, 0⟩]
        (.read (.slot ⟨.argument, 3, 0⟩)) :=
      .part List.mem_cons_self (.block List.mem_cons_self (.block List.mem_cons_self
        (.here List.mem_cons_self)))
    obtain ⟨scope, found, -⟩ := all _ _ stands
    cases found

end MessageMachine
