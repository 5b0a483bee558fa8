import MessageMachine.Proofs.Coherence
import MessageMachine.Proofs.Definitions
import MessageMachine.Proofs.Discipline.Sessions

/-!
# Prepared code matches its activations

Code that was prepared for a class and for scopes is run with receivers of that class and in frames
that stand in for the scopes.  This is a discipline: what is looked up is inherited by the class of
the receiver, blocks are called with as many arguments as they have parameters, and every slot and
every field that code refers to is there when it is referred to.

Two operations get around lookups: one invokes a method on whatever receiver it is given, and one
looks a selector up in whatever class it is given.  Sessions in which these are run are left out.
-/

namespace MessageMachine

/-- Whether an escape is no report of code that does not match its activation. -/
def Escape.Proper (image : Image) : Escape → Prop
  | .unwinding value _ => value.Exists image
  | .failed exception => ∀ fault, exception.failure ≠ .internal fault
  | .exhausted => True
  | .stopped => True

theorem Escape.Proper.mono {before after : Image} {escape : Escape} (proper : escape.Proper before)
    (extended : before.Extends after) : escape.Proper after := by
  cases escape with
  | unwinding value home => exact Value.Exists.mono proper extended
  | failed exception => exact proper
  | exhausted | stopped => trivial

/-- Whether an activation suits the image that it is begun in. -/
inductive Activation.Suits (image : Image) : Activation → Prop
  | method {ref : MethodRef} {receiver : Value} {operands : List Value} :
      Value.AllExist image (receiver :: operands) →
      image.Inherits (image.classOf receiver) ref →
      Suits image (.method ref (receiver :: operands))
  | block {ref : BlockRef} {arguments : List Value} : Value.AllExist image arguments →
      image.heap.blocks.Has ref → arguments.length = (image.blockAt ref).parameters →
      Suits image (.block ref arguments)

theorem Activation.Suits.known {image : Image} {activation : Activation}
    (suits : activation.Suits image) : activation.Known image := by
  cases suits with
  | method allKnown _ => exact allKnown
  | block allKnown present _ => exact ⟨present, allKnown⟩

/-- Whether code suits the frame that it is to be evaluated in. -/
inductive Image.Accommodates (image : Image) (frame : FrameRef) (code : Code) : Prop
  | intro {holder : ClassRef} {scopes : List Scope} : image.classes.Has holder →
      code.Suits (image.classAt holder).fields.length (image.classAt holder).superclass scopes →
      image.Seats holder scopes (fun depth => code.reachesOut depth) frame →
      (∀ node ∈ code.outline, image.Outlines node) → Accommodates image frame code

/-- Whether an activation, if there is a budget for it, runs an operation that gets around
lookups. -/
def Running.Forces (running : Running) : Prop :=
  0 < running.budget ∧ ∃ ref arguments, running.activation = .method ref arguments ∧
    ((running.image.methodAt ref).behavior = .primitive (.method .invokeOnWith) ∨
      (running.image.methodAt ref).behavior = .primitive (.object .performInSuperclass))

theorem eq_of_blockClassName_mem :
    ∀ count ≤ blockParameterLimit, ∀ parameters ≤ blockParameterLimit,
      blockClassName count ∈ [blockClassName parameters, "Block", "Object"] →
      count = parameters := by
  decide

theorem Code.outline_of_part {code part : Code} (member : part ∈ code.parts) {node : OutlineNode}
    (found : node ∈ part.outline) : node ∈ code.outline := by
  have all := Code.mem_outlineAll member found
  cases code with
  | write slot value => simpa only [parts, outlineAll, List.append_nil, outline] using all
  | answer value span => simpa only [parts, outlineAll, List.append_nil, outline] using all
  | writeField site index value =>
      simp only [parts, outlineAll, List.append_nil] at all
      exact List.mem_cons_of_mem _ all
  | send site selector receiver operands => exact List.mem_cons_of_mem _ all
  | superSend site origin selector operands => exact List.mem_cons_of_mem _ all
  | control controlSite message site selector receiver operands =>
      exact List.mem_cons_of_mem _ all
  | self | read | readField | global | literal | block => cases member

namespace Image

variable {image before after : Image} {frame : FrameRef} {code : Code}

namespace Accommodates

theorem provided (fits : image.Accommodates frame code) :
    ∀ node ∈ code.outline, image.Outlines node := by
  cases fits with
  | intro _ _ _ provided => exact provided

theorem mono (fits : before.Accommodates frame code) (retains : before.Retains after) :
    after.Accommodates frame code := by
  cases fits with
  | intro known suits seats provided =>
      rw [← retains.fieldNames known, ← retains.superclass known] at suits
      exact .intro (Nat.lt_of_lt_of_le known retains.extended.classes) suits (seats.mono retains)
        fun node found => (provided node found).mono retains.extended

theorem parts (fits : image.Accommodates frame code) :
    ∀ part ∈ code.parts, image.Accommodates frame part := by
  intro part member
  cases fits with
  | intro known suits seats provided =>
      exact .intro known (suits.parts part member)
        (seats.weaken fun _ reaches => Code.reachesOut_of_part member reaches)
        fun node found => provided node (Code.outline_of_part member found)

/-- A slot that is read is found. -/
theorem read {slot : Slot} (fits : image.Accommodates frame (.read slot)) :
    ∃ value, image.slot? frame slot = some value := by
  cases fits with
  | intro _ suits seats _ =>
      cases suits with
      | read inside =>
          obtain ⟨home, found⟩ := seats.slotHome? inside fun level outside => by
            simp [Code.reachesOut, outside]
          exact slot?_of_slotHome? found

/-- A slot that is written is found. -/
theorem write {slot : Slot} {value : Code} (fits : image.Accommodates frame (.write slot value)) :
    ∃ home, image.slotHome? frame slot = some home := by
  cases fits with
  | intro _ suits seats _ =>
      cases suits with
      | write inside _ =>
          exact seats.slotHome? inside fun level outside => by simp [Code.reachesOut, outside]

end Accommodates

/-- The class of a value that is neither an object nor a class object is a core class. -/
theorem fieldCount_or_core (image : Image) (receiver : Value) :
    image.fieldCount receiver = (image.classAt (image.classOf receiver)).fields.length ∨
      image.classOf receiver ∈ image.core.inOrder := by
  cases receiver with
  | object ref => exact Or.inl rfl
  | classObject ref => exact Or.inl rfl
  | boolean truth => cases truth <;> simp [classOf, CoreClasses.inOrder]
  | block ref =>
      right
      rw [classOf]
      unfold CoreClasses.blockOf
      split <;> simp [CoreClasses.inOrder]
  | method ref =>
      right
      rw [classOf]
      split <;> simp [CoreClasses.inOrder]
  | nil | integer | big | double | symbol | string | array =>
      simp [classOf, CoreClasses.inOrder]

/-- A receiver has the fields of the ancestors of its class. -/
theorem Hierarchical.lt_fieldCount (hierarchy : image.Hierarchical) {receiver : Value}
    {holder : ClassRef} (descends : image.Descends (image.classOf receiver) holder) {index : Nat}
    (inside : index < (image.classAt holder).fields.length) :
    index < image.fieldCount receiver := by
  have fewer := hierarchy.fields_le descends
  rcases image.fieldCount_or_core receiver with same | core
  · rw [same]
    exact Nat.lt_of_lt_of_le inside fewer
  · rw [hierarchy.core _ core] at fewer
    exact absurd inside (Nat.not_lt.mpr (Nat.le_trans fewer (Nat.zero_le _)))

/-- A field that is read is found, and its site is the one of the code. -/
theorem Coherent.readField (coherent : image.Coherent) {site : FieldSiteRef} {index : Nat}
    (fits : image.Accommodates frame (.readField site index)) :
    (Action.readFieldAt site (image.frameAt frame).receiver index).Allowed image ∧
      ∃ value, (image.readFieldAt site (image.frameAt frame).receiver index).1 = some value := by
  cases fits with
  | intro _ suits seats provided =>
      cases suits with
      | readField inside =>
          obtain ⟨known, descends⟩ := seats.receiver fun _ => rfl
          have accesses : image.AccessesField site index :=
            Or.inl (provided _ List.mem_cons_self)
          have reads := (coherent.laid.readFieldAt coherent.formed known accesses).1
          rw [if_pos (coherent.hierarchy.lt_fieldCount descends inside)] at reads
          exact ⟨⟨known, accesses⟩, _, reads⟩

/-- A field that is written is found, and its site is the one of the code. -/
theorem Coherent.writeField (coherent : image.Coherent) {site : FieldSiteRef} {index : Nat}
    {code : Code} (fits : image.Accommodates frame (.writeField site index code)) {value : Value}
    (incoming : value.Exists image) :
    (Action.writeFieldAt site (image.frameAt frame).receiver index value).Allowed image ∧
      (image.writeFieldAt site (image.frameAt frame).receiver index value).1 = true := by
  cases fits with
  | intro _ suits seats provided =>
      cases suits with
      | writeField inside _ =>
          obtain ⟨known, descends⟩ := seats.receiver fun _ => rfl
          have accesses : image.AccessesField site index :=
            Or.inr (provided _ List.mem_cons_self)
          refine ⟨⟨known, incoming, accesses⟩, ?_⟩
          rcases coherent.laid.writeFieldAt coherent.formed known incoming accesses with
            ⟨-, written, -⟩ | ⟨outside, -⟩
          · exact written
          · exact absurd (coherent.hierarchy.lt_fieldCount descends inside) outside

/-- What a receiver answers a selector with is inherited by its class. -/
theorem Coherent.inherits_of_lookupFor (coherent : image.Coherent) {receiver : Value}
    (known : receiver.Exists image) {selector : Selector} {method : MethodRef}
    (found : image.lookupFor receiver selector = some method) :
    image.Inherits (image.classOf receiver) method :=
  coherent.staff.inherits_of_lookup coherent.formed (has_classOf coherent.formed known) found

/-- What a send at a site is resolved to is inherited by the class of the receiver. -/
theorem Mindful.inherits_of_lookupAt (caches : image.Mindful) (staff : image.Staffed)
    (formed : image.WellFormed) {receiver : Value} (known : receiver.Exists image)
    {site : CallSiteRef} {selector : Selector} (sends : image.Sends site selector)
    {method : MethodRef} (found : (image.lookupAt site selector receiver).1 = some method) :
    image.Inherits (image.classOf receiver) method := by
  rcases image.lookupAt_cases site selector receiver with
    ⟨target, hit, result⟩ | ⟨-, result⟩ | ⟨target, journal, looked, result⟩
  · obtain ⟨entry, member, guard, -, same⟩ := DispatchCache.exists_entry_of_target? hit
    have remembered := (caches.sends site selector sends entry member).2
    rw [result] at found
    cases found
    rwa [guard, same, ← classOf_eq_guardClass] at remembered
  · rw [result] at found
    cases found
  · rw [result] at found
    cases found
    exact staff.inherits_of_lookup formed (has_classOf formed known) looked

theorem Coherent.inherits_of_lookupSuperAt (coherent : image.Coherent) {site : CallSiteRef}
    {origin : ClassRef} {selector : Selector} (sends : image.SendsSuper site origin selector)
    {method : MethodRef}
    (found : (image.lookupSuperAt site origin selector).1 = some method) :
    image.Inherits origin method := by
  rcases image.lookupSuperAt_cases site origin selector with
    ⟨entry, cache, -, result⟩ | ⟨-, result⟩ | ⟨target, looked, result⟩
  · rw [result] at found
    cases found
    refine coherent.caches.supers site origin selector sends entry ?_
    rw [cache]
    exact List.mem_singleton_self entry
  · rw [result] at found
    cases found
  · rw [result] at found
    cases found
    exact coherent.staff.inherits_of_lookup coherent.formed
      ((coherent.formed.placed _ sends).origin origin rfl) looked

/-- The operations that call a block call it with as many arguments as it has parameters. -/
theorem Staffed.length_of_calls (staff : image.Staffed) (hierarchy : image.Hierarchical)
    {ref : MethodRef} {block : BlockRef}
    (limited : (image.blockAt block).parameters ≤ blockParameterLimit)
    (inherits : image.Inherits (image.classOf (.block block)) ref) {operation : BlockOperation}
    (behavior : (image.methodAt ref).behavior = .primitive (.block operation)) {count : Nat}
    (few : count ≤ blockParameterLimit)
    (home : (Primitive.block operation).home = blockClassName count) :
    count = (image.blockAt block).parameters := by
  -- The operation is held by an ancestor of the class of the block, and only one has its name.
  have belongs := staff.behaviors ref
  rw [behavior] at belongs
  have name : (image.classAt (image.methodAt ref).holder).name =
      (Primitive.block operation).home := belongs
  have named := hierarchy.blocks _ _ inherits.descends
  rw [name, home] at named
  exact eq_of_blockClassName_mem count few _ limited named

end Image

namespace Discipline

/-- In well-formed images, the values that programs come by exist. -/
theorem Values.of_existing {D : Discipline} (good : D.Good = fun image value => value.Exists image)
    (formed : ∀ image, D.Holds image → image.WellFormed)
    (extended : ∀ image after, D.Later image after → image.Extends after) : D.Values := by
  obtain ⟨Holds, Later, Good, Fine, Fits, Runs, Begun, Here, Given⟩ := D
  subst good
  exact {
    keep := fun later known => known.mono (extended _ _ later)
    plain := fun image plain _ => plain.exists image
    receiver := fun holds ref => ((formed _ holds).within.frames ref).receiver
    slot := fun {image _ slot _} holds found => by
      unfold Image.slot? at found
      split at found
      · next home _ =>
          have all := (formed image holds).within.frames home
          unfold Frame.slot? at found
          split at found
          · exact all.arguments _ (Array.mem_of_getElem? found)
          · exact all.temporaries _ (Array.mem_of_getElem? found)
      · cases found
    global := fun holds found =>
      (formed _ holds).within.globals _ (Dictionary.mem_values_of_find? found)
    element := fun holds member => (formed _ holds).within.elements _ _ member
    field := fun {image _ _ _} holds found =>
      Image.readField_good (fun _ plain _ => plain.exists image)
        ⟨(formed image holds).within.classValues, (formed image holds).within.contents⟩ found
    fieldAt := fun {image _ _ _ _} holds found =>
      Image.readFieldAt_good (fun _ plain _ => plain.exists image)
        ⟨(formed image holds).within.classValues, (formed image holds).within.contents⟩ found
    classOf := fun holds known => Image.has_classOf (formed _ holds) known
    superclass := fun {_ ref parent} holds found =>
      (formed _ holds).within.superclasses ref parent found
    entry := fun {_ ref method} holds member =>
      (formed _ holds).within.dictionaries ref method member
    holder := fun {_ ref} holds known => (formed _ holds).within.holders ref known
    array := fun _ _ => (Arena.has_push _ _ _).mpr (Or.inr rfl)
    object := fun _ _ => (Arena.has_push _ _ _).mpr (Or.inr rfl)
    closure := fun _ _ => (Arena.has_push _ _ _).mpr (Or.inr rfl) }

section Existing

variable {image : Image} {activation : Activation}

theorem sends_of_sending? {code : Code} {site : CallSiteRef} {selector : Selector}
    (provided : ∀ node ∈ code.outline, image.Outlines node)
    (sending : code.sending? = some (site, selector)) : image.Sends site selector := by
  cases code with
  | send site selector receiver operands =>
      cases sending
      exact Or.inl (provided _ List.mem_cons_self)
  | control controlSite message site selector receiver operands =>
      cases sending
      exact Or.inr ⟨controlSite, message, provided _ List.mem_cons_self⟩
  | _ => cases sending

/-- The activations that operations ask for mention existing values. -/
theorem known_of_calls {primitive : Primitive} {arguments : List Value} (formed : image.WellFormed)
    (allKnown : Value.AllExist image arguments)
    (calls : primitive.Calls image arguments activation) : activation.Known image := by
  cases calls with
  | value => exact ⟨allKnown.head, .nil image⟩
  | valueWith => exact ⟨allKnown.head, .cons allKnown.tail.head (.nil image)⟩
  | valueWithWith =>
      exact ⟨allKnown.head, .cons allKnown.tail.head (.cons allKnown.tail.tail.head (.nil image))⟩
  | invoked =>
      refine .cons allKnown.tail.head fun value member => ?_
      exact formed.within.elements _ value (Array.mem_toList_iff.mp member)
  | inSuperclass _ => exact .cons allKnown.head (.nil image)

/-- An activation that mentions existing values gets a frame of such values, for code that belongs
to the image. -/
theorem enters_of_opening (formed : image.WellFormed) (known : activation.Known image)
    {frame : Frame} {body : List Code}
    (opened : activation.opening? image = some (frame, body)) :
    (Action.enter frame).Allowed image ∧
      ∀ code ∈ body, ∀ node ∈ code.outline, image.Outlines node := by
  cases Activation.opens_of_opening opened with
  | @method ref receiver operands routine behavior count =>
      have allKnown : Value.AllExist image (receiver :: operands) := known
      refine ⟨Frame.all_ofMethod trivial ref allKnown.head allKnown.tail routine.temporaries,
        fun code member node found => ⟨ref, ?_⟩⟩
      simpa only [Method.body, behavior] using Code.mem_outlineAll member found
  | @block ref arguments =>
      exact ⟨formed.all_blockFrame ref known.2, fun code member node found =>
        formed.within.bodies ref node (Code.mem_outlineAll member found)⟩

end Existing

/-- The discipline of running code where it suits. -/
def matching (session : Session) : Discipline where
  Holds := Image.Coherent
  Later := Image.Retains
  Good := fun image value => value.Exists image
  Fine := fun image escape => escape.Proper image
  Fits := fun image frame code => image.Accommodates frame code
  Runs := fun image activation => activation.Suits image
  Begun := fun running => ∃ below, session.Underway (running :: below)
  Here := fun _ _ _ => True
  Given := fun _ _ _ _ => True

section Laws

variable {session : Session} {image : Image} {activation : Activation} {frame : Frame}
  {body : List Code}

theorem matching_act {action : Action} (coherent : image.Coherent)
    (allowed : action.Allowed image) (suitable : action.Suitable image) :
    (matching session).Steps image (action.perform image) :=
  ⟨coherent.perform allowed suitable, Action.retains_perform allowed⟩

theorem matching_values (session : Session) : (matching session).Values :=
  .of_existing rfl (fun _ coherent => coherent.formed) fun _ _ retains => retains.extended

/-- A block that is made has kept hold of what it needs. -/
theorem matching_block {ref : FrameRef} {parameters temporaries : Nat} {captures : Bool}
    (coherent : image.Coherent)
    (fits : image.Accommodates ref (.block parameters temporaries captures body)) :
    (matching session).Steps image (image.addBlock
      { captured := if captures then some ref else none, parameters, temporaries, body }) := by
  cases fits with
  | intro known suits seats provided =>
      cases suits with
      | block few needless inside =>
          have furnishes : image.Furnishes
              { captured := if captures then some ref else none, parameters, temporaries,
                body } := by
            refine .intro known few inside fun needed => ⟨ref, ?_, ?_⟩
            · cases captures with
              | true => rfl
              | false => cases (needless rfl).symm.trans needed
            · exact seats.weaken fun depth reaches => by rwa [Code.reachesOut]
          have allowed : (Action.makeBlock
              { captured := if captures then some ref else none, parameters, temporaries,
                body }).Allowed image :=
            fun node found => provided node (List.mem_cons_of_mem _ found)
          exact matching_act coherent allowed furnishes

theorem matching_resolve {ref : FrameRef} {code : Code} {site : CallSiteRef} {selector : Selector}
    {receiver : Value} (coherent : image.Coherent) (fits : image.Accommodates ref code)
    (sending : code.sending? = some (site, selector)) (known : receiver.Exists image) :
    let answer := image.lookupAt site selector receiver
    (matching session).Steps image answer.2 ∧ ∀ method, answer.1 = some method →
      ∀ operands, (matching session).AllGood answer.2 operands →
      (matching session).Runs answer.2 (.method method (receiver :: operands)) := by
  have sends := sends_of_sending? fits.provided sending
  have allowed : (Action.resolve site selector receiver).Allowed image := ⟨known, sends⟩
  have retains := Action.retains_perform allowed
  refine ⟨matching_act coherent allowed trivial, fun method found operands allKnown => ?_⟩
  refine .method (.cons (known.mono retains.extended) allKnown) ?_
  have inherits := (coherent.caches.inherits_of_lookupAt coherent.staff coherent.formed known sends
    found).mono retains
  rwa [← retains.classOf known] at inherits

theorem matching_resolveSuper {earlier : Image} {ref : FrameRef} {site : CallSiteRef}
    {origin : ClassRef} {selector : Selector} {codes : List Code}
    (fits : earlier.Accommodates ref (.superSend site origin selector codes))
    (later : earlier.Retains image) (coherent : image.Coherent) :
    let answer := image.lookupSuperAt site origin selector
    (matching session).Steps image answer.2 ∧ ∀ method, answer.1 = some method →
      ∀ operands, (matching session).AllGood answer.2 operands →
      (matching session).Runs answer.2 (.method method
        ((earlier.frameAt ref).receiver :: operands)) := by
  cases fits with
  | @intro holder scopes held suits seats provided =>
      cases suits with
      | superSend above _ =>
          -- The operands were evaluated since `earlier`; the receiver has the same class still.
          have sends : image.SendsSuper site origin selector :=
            (provided _ List.mem_cons_self).mono later.extended
          have allowed : (Action.resolveSuper site origin selector).Allowed image := sends
          have retains := Action.retains_perform allowed
          have both := later.trans retains
          obtain ⟨known, descends⟩ := seats.receiver fun _ => rfl
          refine ⟨matching_act coherent allowed trivial, fun method found operands allKnown => ?_⟩
          refine .method (.cons (known.mono both.extended) allKnown) ?_
          have inherits := (coherent.inherits_of_lookupSuperAt sends found).mono retains
          have upwards := both.descends (descends.tail ⟨held, above⟩)
          rw [← both.classOf known] at upwards
          exact ⟨inherits.known, upwards.trans inherits.descends⟩

theorem matching_calls (avoids : ∀ running below, session.Underway (running :: below) →
      ¬ running.Forces) {primitive : Primitive} {arguments : List Value}
    (coherent : image.Coherent) (performs : (matching session).Performs image primitive arguments)
    (calls : primitive.Calls image arguments activation) : activation.Suits image := by
  obtain ⟨budget, ref, ⟨below, moment⟩, runs, behavior⟩ := performs
  have avoided := avoids _ _ moment
  have limited : ∀ {block : BlockRef}, image.heap.blocks.Has block →
      (image.blockAt block).parameters ≤ blockParameterLimit := by
    intro block known
    cases coherent.blocks block known with
    | intro _ few _ _ => exact few
  cases runs with
  | method allKnown inherits =>
      cases calls with
      | value =>
          have few : 0 ≤ blockParameterLimit := by decide
          exact .block (.nil image) allKnown.head (coherent.staff.length_of_calls
            coherent.hierarchy (limited allKnown.head) inherits behavior few rfl)
      | valueWith =>
          have few : 1 ≤ blockParameterLimit := by decide
          exact .block (.cons allKnown.tail.head (.nil image)) allKnown.head
            (coherent.staff.length_of_calls coherent.hierarchy (limited allKnown.head) inherits
              behavior few rfl)
      | valueWithWith =>
          have few : 2 ≤ blockParameterLimit := by decide
          exact .block (.cons allKnown.tail.head (.cons allKnown.tail.tail.head (.nil image)))
            allKnown.head (coherent.staff.length_of_calls coherent.hierarchy
              (limited allKnown.head) inherits behavior few rfl)
      | invoked =>
          exact absurd ⟨Nat.succ_pos budget, ref, _, rfl, Or.inl behavior⟩ avoided
      | inSuperclass _ =>
          exact absurd ⟨Nat.succ_pos budget, ref, _, rfl, Or.inr behavior⟩ avoided

/-- The body of an activation suits the frame that the activation is run in. -/
theorem matching_enter (coherent : image.Coherent) (suits : activation.Suits image)
    (opened : activation.opening? image = some (frame, body)) :
    (image.addFrame frame).Coherent ∧
      ∀ code ∈ body, (image.addFrame frame).Accommodates image.heap.frames.next code := by
  have retains := Image.Retains.addFrame image frame
  obtain ⟨allowed, outlined⟩ := enters_of_opening coherent.formed suits.known opened
  have provided : ∀ code ∈ body, ∀ node ∈ code.outline, (image.addFrame frame).Outlines node :=
    fun code member node found => (outlined code member node found).mono retains.extended
  refine ⟨coherent.perform allowed trivial, fun code member => ?_⟩
  cases Activation.opens_of_opening opened with
  | @method ref receiver operands routine behavior count =>
      cases suits with
      | method allKnown inherits =>
          have known := coherent.formed.within.holders ref inherits.known
          have belongs := coherent.staff.behaviors ref
          rw [behavior] at belongs
          have suits := belongs code member
          rw [← count, ← retains.fieldNames known, ← retains.superclass known] at suits
          exact .intro (Nat.lt_of_lt_of_le known retains.extended.classes) suits
            (.addMethodFrame allKnown.head inherits.descends ref operands routine.temporaries)
            (provided code member)
  | @block ref arguments =>
      cases suits with
      | block allKnown present count =>
          obtain ⟨holder, scopes, known, suits, seats⟩ :=
            (coherent.blocks ref present).addBlockFrame count
          have suits := suits code member
          rw [← retains.fieldNames known, ← retains.superclass known] at suits
          exact .intro (Nat.lt_of_lt_of_le known retains.extended.classes) suits
            (seats.weaken fun _ reaches => Code.anyReachOut_of_mem member reaches)
            (provided code member)

theorem matching_laws (avoids : ∀ running below, session.Underway (running :: below) →
    ¬ running.Forces) : (matching session).Laws where
  toOrder := ⟨Image.Retains.refl, Image.Retains.trans⟩
  toValues := matching_values session
  toEscapes := {
    exhausted := fun _ => trivial
    stopped := fun _ => trivial
    failed := fun _ _ ordinary => ordinary
    traced := fun _ proper => proper
    unwound := fun known => known }
  toPrograms := {
    carry := fun retains fits => fits.mono retains
    parts := fun fits => fits.parts
    literal := fun _ _ _ => trivial
    read := fun _ fits missing => by
      obtain ⟨value, found⟩ := Image.Accommodates.read fits
      cases missing.symm.trans found
    write := fun {image _ slot _ value home} coherent _ known _ => by
      have allowed : (Action.setSlot home slot.kind slot.index value).Allowed image := known
      exact matching_act coherent allowed trivial
    unwritten := fun _ fits missing => by
      obtain ⟨home, found⟩ := Image.Accommodates.write fits
      cases missing.symm.trans found
    readField := fun coherent fits => by
      obtain ⟨allowed, value, found⟩ := Image.Coherent.readField coherent fits
      refine ⟨matching_act coherent allowed trivial, fun missing => ?_⟩
      cases missing.symm.trans found
    writeField := fun coherent fits incoming _ => by
      obtain ⟨allowed, written⟩ := Image.Coherent.writeField coherent fits incoming
      refine ⟨matching_act coherent allowed trivial, fun missing => ?_⟩
      cases missing.symm.trans written
    block := fun coherent fits _ => matching_block coherent fits
    answer := fun _ _ known _ => known
    resolve := fun coherent fits sending known _ => matching_resolve coherent fits sending known
    resolveSuper := fun _ fits later coherent _ => matching_resolveSuper fits later coherent }
  toActivations := {
    found := fun coherent known found retains _ allKnown => by
      refine .method (.cons (known.mono retains.extended) allKnown) ?_
      have inherits := (Image.Coherent.inherits_of_lookupFor coherent known found).mono retains
      rwa [← retains.classOf known] at inherits
    called := fun {_ image ref} _ known count retains _ => by
      refine .block (.nil image) (Nat.lt_of_lt_of_le known retains.extended.blocks) ?_
      rw [retains.blocks ref known, count]
      rfl
    arguments := fun suits => by
      cases suits with
      | method allKnown _ => exact allKnown
    accompanied := fun suits => by cases suits
    calls := fun coherent performs calls => matching_calls avoids coherent performs calls
    puts := fun {image _ _ ref value} coherent ⟨_, _, _, suits, _⟩ puts place => by
      have allowed : (Action.setElement ref place value).Allowed image := by
        cases suits with
        | method allKnown _ => exact allKnown value puts.mem
      exact matching_act coherent allowed trivial
    assigns := fun {_ _ _ receiver place value} coherent _ _ known valueKnown => by
      have allowed : (Action.writeField receiver place value).Allowed _ := ⟨known, valueKnown⟩
      exact matching_act coherent allowed trivial
    nested := fun ⟨_, moment⟩ asks => ⟨_, .nested moment asks⟩
    here := fun _ _ => trivial
    given := fun _ _ _ => trivial
    enter := fun coherent suits _ opened => matching_enter coherent suits opened
    leave := fun {_ image frame _ after} _ _ _ later coherent => by
      have allowed : (Action.leave image.heap.frames.next).Allowed after := trivial
      have retains := Action.retains_perform allowed
      refine ⟨⟨coherent.perform allowed trivial,
        ((Image.Retains.addFrame image frame).trans later).trans retains⟩, ?_, ?_⟩
      · exact fun _ known => known.mono retains.extended
      · exact fun _ proper _ => proper.mono retains.extended }
  act := fun {image action} coherent may => by
    refine matching_act coherent ?_ ?_
    · cases action <;> first | exact may | exact may.elim
    · cases action <;> trivial

end Laws

end Discipline

end MessageMachine
