import MessageMachine.Proofs.Counterpart
import MessageMachine.Proofs.Invariance

/-!
# Images in normal form

An integer that fits into a word is to be held as one.  In an image in normal form no big integer
fits into a word, wherever it is held: in a global, in an array, in a field, in a frame or in a
literal of prepared code.  The literals of code are those of the source, so that a method without
such integers can be installed; and every other action keeps the normal form as long as the values
it brings in are in normal form.
-/

namespace MessageMachine

namespace Code

theorem Encloses.of_mem {codes : List Code} {outer code : Code} (encloses : Encloses [outer] code)
    (member : outer ∈ codes) : Encloses codes code := by
  cases encloses with
  | here same => exact .here (List.mem_singleton.mp same ▸ member)
  | part same inside => exact .part (List.mem_singleton.mp same ▸ member) inside
  | block same inside => exact .block (List.mem_singleton.mp same ▸ member) inside

/-- Whether the big integers in all literals of some code are in normal form. -/
def AllNormal (codes : List Code) : Prop :=
  ∀ datum, Encloses codes (.literal datum) → ∀ number ∈ datum.bigNumbers,
    (Value.big number).IsNormal

namespace AllNormal

variable {code part : Code} {codes body : List Code}

theorem nil : AllNormal [] := by
  intro datum encloses
  cases encloses with
  | here member | part member | block member => cases member

theorem single (all : AllNormal codes) (member : code ∈ codes) : AllNormal [code] :=
  fun datum encloses => all datum (encloses.of_mem member)

theorem parts (all : AllNormal [code]) (member : part ∈ code.parts) : AllNormal [part] :=
  fun datum encloses => all datum (.part List.mem_cons_self (encloses.of_mem member))

theorem inside {parameters temporaries : Nat} {captures : Bool}
    (all : AllNormal [.block parameters temporaries captures body]) : AllNormal body :=
  fun datum encloses => all datum (.block List.mem_cons_self encloses)

end AllNormal

end Code

namespace Source

/-- Whether the big integers written in a method are in normal form, as far as their digits can be
read. -/
def MethodDefinition.IsNormal (definition : MethodDefinition) : Prop :=
  ∀ temporaries body, definition.body = .expressions temporaries body →
    ∀ scopes value,
      Stands [{ parameters := definition.parameters, temporaries }] body scopes (.literal value) →
      ∀ digits number, value.HasDigits digits → Integer.read digits = .ok number →
        (Value.big number).IsNormal

mutual

/-- The big integers of what a literal denotes are written in it. -/
theorem Literal.Denotes.exists_digits {value : Literal} (datum : Datum)
    (denotes : value.Denotes datum) {number : Int} (member : number ∈ datum.bigNumbers) :
    ∃ digits, value.HasDigits digits ∧ Integer.read digits = .ok number := by
  cases denotes with
  | big found =>
      cases List.mem_singleton.mp member
      exact ⟨_, .big, found⟩
  | @array items data all =>
      obtain ⟨item, belongs, digits, has, found⟩ :=
        Literal.exists_digits_of_forall₂ data all member
      exact ⟨digits, .item belongs has, found⟩
  | symbol | string | double | integer => cases member

theorem Literal.exists_digits_of_forall₂ {items : List Literal} (data : List Datum)
    (all : List.Forall₂ Literal.Denotes items data) {number : Int}
    (member : number ∈ Datum.allBigNumbers data) :
    ∃ item ∈ items, ∃ digits, item.HasDigits digits ∧ Integer.read digits = .ok number := by
  cases all with
  | nil => cases member
  | @cons item datum items data denotes all =>
      rcases List.mem_append.mp member with first | later
      · obtain ⟨digits, has, found⟩ := Literal.Denotes.exists_digits datum denotes first
        exact ⟨item, List.mem_cons_self, digits, has, found⟩
      · obtain ⟨other, belongs, digits, has, found⟩ :=
          Literal.exists_digits_of_forall₂ data all later
        exact ⟨other, List.mem_cons_of_mem item belongs, digits, has, found⟩

end

/-- What is in normal form is prepared in normal form. -/
theorem MethodDefinition.IsNormal.prepare {definition : MethodDefinition}
    (normal : definition.IsNormal) {surroundings : Surroundings} {draft after : Draft}
    {routine : Routine} (prepared : definition.prepare surroundings draft = .ok routine after) :
    Code.AllNormal routine.body := by
  obtain ⟨temporaries, body, codes, given, -, preparedAll, rfl⟩ :=
    MethodDefinition.prepared_of_prepare prepared
  intro datum encloses number member
  obtain ⟨scopes, _, stands, becomes⟩ := Expression.stands_of_encloses encloses
    (Expression.becomes_of_prepareAll body preparedAll)
  cases becomes with
  | literal denotes =>
      obtain ⟨digits, has, found⟩ := denotes.exists_digits datum member
      exact normal temporaries body given scopes _ stands digits number has found

end Source

/-- Whether everything that is held in an image is in normal form. -/
structure Image.Normal (image : Image) : Prop where
  globals : ∀ value ∈ image.globals.values, value.IsNormal
  elements : ∀ ref, ∀ value ∈ image.arrayAt ref, value.IsNormal
  contents : image.Contains Value.IsNormal
  frames : ∀ ref, (image.frameAt ref).All Value.IsNormal
  methods : ∀ ref, Code.AllNormal (image.methodAt ref).body
  blocks : ∀ ref, Code.AllNormal (image.blockAt ref).body

/-- Whether whatever an action brings into an image is in normal form. -/
def Action.BringsNormal : Action → Prop
  | .makeArray elements => ∀ value ∈ elements, value.IsNormal
  | .setElement _ _ value => value.IsNormal
  | .makeBlock closure => Code.AllNormal closure.body
  | .enter frame => frame.All Value.IsNormal
  | .setSlot _ _ _ value => value.IsNormal
  | .writeField _ _ value => value.IsNormal
  | .writeFieldAt _ _ _ value => value.IsNormal
  | .bind _ value => value.IsNormal
  | .install holder selector behavior =>
      Code.AllNormal ({ holder, selector, behavior } : Method).body
  | _ => True

namespace Image.Normal

variable {image before after : Image}

theorem of_tended (normal : before.Normal) (tended : Tended Value.IsNormal before after) :
    after.Normal where
  globals := by
    rw [tended.globals]
    exact normal.globals
  elements := fun ref => by
    rw [arrayAt, tended.arrays]
    exact normal.elements ref
  contents := tended.contains normal.contents
  frames := fun ref => by
    rw [frameAt, tended.frames]
    exact normal.frames ref
  methods := fun ref => by
    rw [methodAt, tended.methods]
    exact normal.methods ref
  blocks := fun ref => by
    rw [blockAt, tended.blocks]
    exact normal.blocks ref

/-- Actions that bring in nothing else leave everything in normal form. -/
theorem perform (normal : image.Normal) {action : Action} (brings : action.BringsNormal) :
    (action.perform image).Normal := by
  have plain : ∀ value : Value, value.IsPlain → value.IsNormal → value.IsNormal :=
    fun _ _ known => known
  have contents := normal.contents
  cases action with
  | noteDown | meet | draw | settle | allocate =>
      exact { normal with contents := { contents with } }
  | makeArray elements =>
      refine { normal with elements := fun ref => ?_, contents := { contents with } }
      simp only [Action.perform, arrayAt, addArray, Arena.get_push]
      split
      · exact brings
      · exact normal.elements ref
  | setElement ref place value =>
      refine { normal with elements := fun other => ?_, contents := { contents with } }
      simp only [Action.perform, arrayAt, setElement, Arena.get_modify]
      split
      · intro held member
        rcases Array.mem_or_eq_of_mem_setIfInBounds member with old | new
        · exact normal.elements other held old
        · exact new ▸ brings
      · exact normal.elements other
  | makeBlock closure =>
      refine { normal with blocks := fun ref => ?_, contents := { contents with } }
      simp only [Action.perform, blockAt, addBlock, Arena.get_push]
      split
      · exact brings
      · exact normal.blocks ref
  | instantiate owner =>
      refine { normal with contents := { contents with objects := fun ref => ?_ } }
      simp only [Action.perform, objectAt, instantiate, Arena.get_push]
      split
      · exact Instance.all_ofShape trivial _ _
      · exact contents.objects ref
  | enter frame =>
      refine { normal with frames := fun ref => ?_, contents := { contents with } }
      simp only [Action.perform, frameAt, addFrame, Arena.get_push]
      split
      · exact brings
      · exact normal.frames ref
  | setSlot frame kind index value =>
      refine { normal with frames := fun ref => ?_, contents := { contents with } }
      simp only [Action.perform, frameAt, changeFrame, Arena.get_modify]
      split
      · exact (normal.frames ref).setSlot kind index brings
      · exact normal.frames ref
  | leave frame =>
      refine { normal with frames := fun ref => ?_, contents := { contents with } }
      simp only [Action.perform, frameAt, changeFrame, Arena.get_modify]
      split
      · exact { normal.frames ref with }
      · exact normal.frames ref
  | readField receiver index => exact normal.of_tended (readField_tended plain image receiver index)
  | writeField receiver index value =>
      exact normal.of_tended (writeField_tended plain image receiver index brings)
  | readFieldAt site receiver index =>
      exact normal.of_tended (readFieldAt_tended plain image site receiver index)
  | writeFieldAt site receiver index value =>
      exact normal.of_tended (writeFieldAt_tended plain image site receiver index brings)
  | resolve site selector receiver =>
      obtain ⟨calls, journal, -, result⟩ := image.lookupAt_eq site selector receiver
      rw [Action.perform, result]
      exact { normal with contents := { contents with } }
  | resolveSuper site origin selector =>
      obtain ⟨calls, -, result⟩ := image.lookupSuperAt_eq site origin selector
      rw [Action.perform, result]
      exact { normal with contents := { contents with } }
  | bind name value =>
      refine { normal with globals := fun held member => ?_, contents := { contents with } }
      rcases Dictionary.mem_values_insert member with new | old
      · exact new ▸ brings
      · exact normal.globals held old
  | install holder selector behavior =>
      have classes := image.classAt_install_cases holder selector behavior
      obtain ⟨journal, installed⟩ := image.addMethod_eq holder selector behavior
      simp only [Action.perform, installed] at classes ⊢
      refine { normal with
        methods := fun ref => ?_, contents := { contents with classValues := fun ref => ?_ } }
      · rcases classes ref with same | ⟨-, same⟩ <;> rw [same] <;> exact contents.classValues ref
      · simp only [methodAt, Arena.get_push]
        split
        · exact brings
        · exact normal.methods ref
  | remove holder selector =>
      refine { normal with contents := { contents with classValues := fun ref => ?_ } }
      rcases image.classAt_remove_cases holder selector ref with same | same <;> rw [same] <;>
        exact contents.classValues ref
  | register name superclass fields classFields =>
      refine { normal with contents := { contents with classValues := fun ref value member => ?_ } }
      rcases image.classAt_register_cases name superclass fields classFields ref with
        ⟨-, same⟩ | ⟨-, same⟩ | ⟨-, same⟩
      · rw [same] at member
        exact contents.classValues ref value member
      · rw [same] at member
        cases Array.not_mem_empty _ member
      · rw [same] at member
        cases (Array.mem_replicate.mp member).2
        trivial

end Image.Normal

namespace Image

theorem normal_founded : (founded .plain .standard false).Normal := by
  have vacant := vacant_founded
  constructor
  · intro value member
    rw [List.eq_nil_of_length_eq_zero vacant.globals] at member
    cases member
  · intro ref value member
    rw [arrayAt, Arena.get_of_size_eq_zero vacant.arrays] at member
    cases Array.not_mem_empty _ member
  · constructor
    · intro ref value member
      rw [values_founded] at member
      cases Array.not_mem_empty _ member
    · intro ref
      rw [objectAt, Arena.get_of_size_eq_zero vacant.objects]
      exact Instance.all_ofShape trivial _ _
  · intro ref
    rw [frameAt, Arena.get_of_size_eq_zero vacant.frames]
    refine ⟨trivial, fun value member => ?_, fun value member => ?_⟩ <;>
      cases Array.not_mem_empty _ member
  · intro ref
    rw [methodAt, Arena.get_of_size_eq_zero vacant.methods]
    exact .nil
  · intro ref
    rw [blockAt, Arena.get_of_size_eq_zero vacant.blocks]
    exact .nil

theorem normal_initial (platform : Platform) (settings : Settings) (listening : Bool) :
    (initial platform settings listening).Normal := by
  have start : (founded platform settings listening).Normal := by
    rw [founded_eq]
    have normal := normal_founded
    exact { normal with contents := { normal.contents with } }
  have keeps : Keeps Normal := by
    intro image action founding _ _ normal
    refine normal.perform ?_
    cases action with
    | noteDown journal => trivial
    | bind name value => exact founding
    | install holder selector behavior =>
        cases behavior with
        | primitive operation => exact .nil
        | _ => cases founding
    | _ => cases founding
  exact (initial_induction platform settings listening start keeps).2

/-- Definitions of methods in normal form leave everything in normal form. -/
theorem normal_withstands : Withstands Source.MethodDefinition.IsNormal Normal := by
  intro image action defines normal
  refine normal.perform ?_
  cases defines with
  | note | allocate | name => trivial
  | declare holder selector bodiless =>
      change Code.AllNormal (Method.body _)
      rw [Method.body_of_bodiless bodiless]
      exact .nil
  | method holder accepted prepared => exact accepted.prepare prepared

end Image

end MessageMachine
