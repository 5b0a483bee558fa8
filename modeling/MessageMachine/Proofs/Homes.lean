import MessageMachine.Proofs.Chronology
import MessageMachine.Proofs.Typing

/-!
# The home of an activation

A return leaves the method that it is written in.  The activation of that method is the home: of the
activation itself if it is one of a method, and otherwise that of the activation in which the block
was made.

The machine has no record of homes.  It follows the frames that blocks have kept hold of.  That this
leads to the frame of the home is a discipline: blocks keep hold of a frame where their code needs
one, every block that can return was made by an activation with a home, and the frames around the
frame of an activation lead to the frame of its home.
-/

namespace MessageMachine

/-- The activations of a session and their homes. -/
inductive Session.Home (session : Session) : Running → Running → Prop
  | method {running : Running} {below : List Running} {ref : MethodRef} {arguments : List Value} :
      session.Underway (running :: below) → running.activation = .method ref arguments →
      Home session running running
  | block {running maker home : Running} {below : List Running} {ref : BlockRef}
      {arguments : List Value} {frame : FrameRef} {parameters temporaries : Nat} {captures : Bool}
      {body : List Code} {image : Image} :
      running.activation = .block ref arguments →
      running.image.blockAt ref = { captured := some frame, parameters, temporaries, body } →
      session.Underway (maker :: below) →
      maker.Evaluates frame (.block parameters temporaries captures body) image →
      image.heap.blocks.next = ref → Home session maker home → Home session running home

/-- An expression is evaluated in the frame of the activation. -/
theorem Running.Evaluates.frame?_eq {running : Running} {frame : FrameRef} {code : Code}
    {image : Image} (evaluates : running.Evaluates frame code image) :
    running.frame? = some frame := by
  cases evaluates with
  | intro opened _ => simp only [Running.frame?, opened, Option.map_some]

namespace Session.Home

variable {session : Session} {running home other : Running}

theorem underway (at' : session.Home running home) :
    ∃ below, session.Underway (home :: below) := by
  induction at' with
  | method moment _ => exact ⟨_, moment⟩
  | block _ _ _ _ _ _ inductionHypothesis => exact inductionHypothesis

/-- An activation has no two homes. -/
theorem unique (first : session.Home running home) (second : session.Home running other) :
    home = other := by
  induction first with
  | method _ method =>
      cases second with
      | method _ _ => rfl
      | block block _ _ _ _ _ => cases method.symm.trans block
  | block block closure moment evaluates _ _ inductionHypothesis =>
      cases second with
      | method _ method => cases method.symm.trans block
      | block blockToo closureToo momentToo evaluatesToo _ atToo =>
          cases block.symm.trans blockToo
          cases closure.symm.trans closureToo
          cases Session.eq_of_frame? moment momentToo evaluates.frame?_eq evaluatesToo.frame?_eq
          exact inductionHypothesis atToo

end Session.Home

/-- Whether code needs the activation that it was written for, however deep it stands in blocks. -/
def Code.Clings (code : Code) : Prop :=
  ∀ depth, code.reachesOut depth = true

/-- Whether some of the code needs the activation that it was written for. -/
def Code.AnyClings (codes : List Code) : Prop :=
  ∀ depth, Code.anyReachOut depth codes = true

namespace Code

theorem Clings.any {code : Code} {codes : List Code} (clings : code.Clings)
    (member : code ∈ codes) : Code.AnyClings codes :=
  fun depth => anyReachOut_of_mem member (clings depth)

/-- An expression with a part that clings clings. -/
theorem Clings.of_part {code part : Code} (member : part ∈ code.parts) (clings : part.Clings) :
    code.Clings :=
  fun depth => reachesOut_of_part member (clings depth)

/-- A block with a body that clings clings, and keeps hold of its frame. -/
theorem AnyClings.block {parameters temporaries : Nat} {captures : Bool} {body : List Code}
    (clings : Code.AnyClings body) : (Code.block parameters temporaries captures body).Clings :=
  fun depth => by
    rw [Code.reachesOut]
    exact clings (depth + 1)

/-- Whether the blocks of code keep hold of the activation they are made in where they need to. -/
abbrev Sealed (code : Code) : Prop :=
  code.Raised code

theorem sealed_of_raised {codes : List Code} (raised : List.Forall₂ Raised codes codes) :
    ∀ code ∈ codes, code.Sealed := by
  intro code member
  exact List.forall₂_same.mp raised code member

theorem Sealed.parts {code : Code} (closed : code.Sealed) : ∀ part ∈ code.parts, part.Sealed := by
  cases closed with
  | write value => intro part member; cases List.mem_singleton.mp member; exact value
  | writeField value => intro part member; cases List.mem_singleton.mp member; exact value
  | answer value => intro part member; cases List.mem_singleton.mp member; exact value
  | send receiver operands => exact sealed_of_raised (.cons receiver operands)
  | control receiver operands => exact sealed_of_raised (.cons receiver operands)
  | superSend operands => exact sealed_of_raised operands
  | self | read | readField | global | literal | block => intro part member; cases member

end Code

/-- The blocks of a prepared method keep hold of the activation they are made in where they need
to. -/
theorem Method.IsPrepared.sealed {method : Method} (prepared : method.IsPrepared) :
    ∀ code ∈ method.body, code.Sealed := by
  obtain ⟨holder, selector, behavior⟩ := method
  cases behavior with
  | primitive | missing => intro code member; cases member
  | defined routine =>
      obtain ⟨definition, surroundings, sites, after, success⟩ := prepared routine rfl
      obtain ⟨temporaries, body, codes, -, -, preparedAll, rfl⟩ :=
        Source.MethodDefinition.prepared_of_prepare success
      exact Code.sealed_of_raised (Source.Expression.raised_of_prepareAll body preparedAll)

namespace Image

variable {image before between after : Image} {frame home : FrameRef}

/-- Whether the frames around a frame lead to a frame with none around it. -/
inductive Leads (image : Image) : FrameRef → FrameRef → Prop
  | here {frame : FrameRef} : image.heap.frames.Has frame →
      (image.frameAt frame).parent = none → Leads image frame frame
  | up {frame parent home : FrameRef} : image.heap.frames.Has frame →
      (image.frameAt frame).parent = some parent → parent.index < frame.index →
      Leads image parent home → Leads image frame home

theorem Leads.has (leads : image.Leads frame home) : image.heap.frames.Has frame := by
  cases leads with
  | here has _ => exact has
  | up has _ _ _ => exact has

theorem Leads.has_home (leads : image.Leads frame home) : image.heap.frames.Has home := by
  induction leads with
  | here has _ => exact has
  | up _ _ _ _ inductionHypothesis => exact inductionHypothesis

theorem Leads.outermostWithin (leads : image.Leads frame home) {steps : Nat}
    (enough : frame.index < steps) : image.outermostWithin steps frame = home := by
  induction leads generalizing steps with
  | @here frame _ alone =>
      obtain ⟨steps, rfl⟩ : ∃ fewer, steps = fewer + 1 := ⟨steps - 1, by omega⟩
      simp only [Image.outermostWithin, alone]
  | @up frame parent home _ within older _ inductionHypothesis =>
      obtain ⟨steps, rfl⟩ : ∃ fewer, steps = fewer + 1 := ⟨steps - 1, by omega⟩
      simp only [Image.outermostWithin, within]
      exact inductionHypothesis (by omega)

/-- The number of frames suffices to get to the outermost one. -/
theorem Leads.outermost (leads : image.Leads frame home) : image.outermost frame = home :=
  leads.outermostWithin leads.has

/-- Whether blocks and frames stay what they are, apart from the slots of frames and whether they
are live. -/
structure Continues (before after : Image) : Prop where
  blockCount : before.heap.blocks.size ≤ after.heap.blocks.size
  blocks : ∀ ref, before.heap.blocks.Has ref → after.blockAt ref = before.blockAt ref
  frameCount : before.heap.frames.size ≤ after.heap.frames.size
  parents : ∀ ref, before.heap.frames.Has ref →
    (after.frameAt ref).parent = (before.frameAt ref).parent
  methods : ∀ ref, before.heap.frames.Has ref →
    (after.frameAt ref).method = (before.frameAt ref).method

namespace Continues

theorem refl (image : Image) : image.Continues image where
  blockCount := Nat.le_refl _
  blocks := fun _ _ => rfl
  frameCount := Nat.le_refl _
  parents := fun _ _ => rfl
  methods := fun _ _ => rfl

theorem trans (first : before.Continues between) (second : between.Continues after) :
    before.Continues after where
  blockCount := Nat.le_trans first.blockCount second.blockCount
  blocks := fun ref old => by
    rw [second.blocks ref (Nat.lt_of_lt_of_le old first.blockCount), first.blocks ref old]
  frameCount := Nat.le_trans first.frameCount second.frameCount
  parents := fun ref old => by
    rw [second.parents ref (Nat.lt_of_lt_of_le old first.frameCount), first.parents ref old]
  methods := fun ref old => by
    rw [second.methods ref (Nat.lt_of_lt_of_le old first.frameCount), first.methods ref old]

theorem of_eq (blocks : after.heap.blocks = before.heap.blocks)
    (frames : after.heap.frames = before.heap.frames) : before.Continues after where
  blockCount := Nat.le_of_eq (congrArg Arena.size blocks).symm
  blocks := fun ref _ => by rw [blockAt, blocks, ← blockAt]
  frameCount := Nat.le_of_eq (congrArg Arena.size frames).symm
  parents := fun ref _ => by rw [frameAt, frames, ← frameAt]
  methods := fun ref _ => by rw [frameAt, frames, ← frameAt]

theorem changeFrame (image : Image) (ref : FrameRef) {change : Frame → Frame}
    (parent : ∀ frame, (change frame).parent = frame.parent)
    (method : ∀ frame, (change frame).method = frame.method) :
    image.Continues (image.changeFrame ref change) where
  blockCount := Nat.le_refl _
  blocks := fun _ _ => rfl
  frameCount := Nat.le_of_eq (Arena.size_modify _ _ _).symm
  parents := fun other _ => by
    simp only [Image.changeFrame, frameAt, Arena.get_modify]
    split
    · exact parent _
    · rfl
  methods := fun other _ => by
    simp only [Image.changeFrame, frameAt, Arena.get_modify]
    split
    · exact method _
    · rfl

theorem setSlot (image : Image) (ref : FrameRef) (kind : SlotKind) (index : Nat) (value : Value) :
    image.Continues ((Action.setSlot ref kind index value).perform image) :=
  .changeFrame image ref (fun _ => by cases kind <;> rfl) (fun _ => by cases kind <;> rfl)

theorem leave (image : Image) (ref : FrameRef) :
    image.Continues ((Action.leave ref).perform image) :=
  .changeFrame image ref (fun _ => rfl) (fun _ => rfl)

theorem addFrame (image : Image) (frame : Frame) : image.Continues (image.addFrame frame) where
  blockCount := Nat.le_refl _
  blocks := fun _ _ => rfl
  frameCount := by simp [Image.addFrame]
  parents := fun _ old => by rw [frameAt, Image.addFrame, Arena.get_push_of_has _ old, ← frameAt]
  methods := fun _ old => by rw [frameAt, Image.addFrame, Arena.get_push_of_has _ old, ← frameAt]

theorem addBlock (image : Image) (closure : Closure) :
    image.Continues (image.addBlock closure) where
  blockCount := by simp [Image.addBlock]
  blocks := fun _ old => by rw [blockAt, Image.addBlock, Arena.get_push_of_has _ old, ← blockAt]
  frameCount := Nat.le_refl _
  parents := fun _ _ => rfl
  methods := fun _ _ => rfl

theorem leads (continues : before.Continues after) (leads : before.Leads frame home) :
    after.Leads frame home := by
  induction leads with
  | here has alone =>
      refine .here (Nat.lt_of_lt_of_le has continues.frameCount) ?_
      rw [continues.parents _ has]
      exact alone
  | up has within older _ inductionHypothesis =>
      refine .up (Nat.lt_of_lt_of_le has continues.frameCount) ?_ older inductionHypothesis
      rw [continues.parents _ has]
      exact within

end Continues

/-- Whether the frame of an activation leads to the frame of its home. -/
inductive LeadsHome (session : Session) (image : Image) (running : Running) (frame : FrameRef) :
    Prop
  | intro {home : Running} {method : MethodRef} {arguments : List Value} {ref : FrameRef} :
      running.frame? = some frame → session.Home running home →
      home.activation = .method method arguments → home.frame? = some ref →
      image.Leads frame ref → (image.frameAt ref).method = some method →
      LeadsHome session image running frame

theorem LeadsHome.own {session : Session} {running : Running}
    (leadsHome : image.LeadsHome session running frame) : running.frame? = some frame := by
  cases leadsHome with
  | intro own _ _ _ _ _ => exact own

theorem LeadsHome.mono {session : Session} {running : Running}
    (leadsHome : before.LeadsHome session running frame) (continues : before.Continues after) :
    after.LeadsHome session running frame := by
  cases leadsHome with
  | intro own at' method homeOwn leads named =>
      refine .intro own at' method homeOwn (continues.leads leads) ?_
      rw [continues.methods _ leads.has_home]
      exact named

/-- Whether a block was made by an activation whose frame leads to its home. -/
inductive Made (session : Session) (image : Image) (ref : BlockRef) : Prop
  | intro {maker : Running} {below : List Running} {frame : FrameRef}
      {parameters temporaries : Nat} {captures : Bool} {body : List Code} {there : Image} :
      image.blockAt ref = { captured := some frame, parameters, temporaries, body } →
      session.Underway (maker :: below) →
      maker.Evaluates frame (.block parameters temporaries captures body) there →
      there.heap.blocks.next = ref → image.LeadsHome session maker frame → Made session image ref

/-- What holds of the images of a session: the blocks of all code keep hold of the activation they
are made in where they need to, and all that do were made by activations with a home. -/
structure Homely (session : Session) (image : Image) : Prop where
  methods : ∀ ref, ∀ code ∈ (image.methodAt ref).body, code.Sealed
  blocks : ∀ ref, ∀ code ∈ (image.blockAt ref).body, code.Sealed
  made : ∀ ref, Code.AnyClings (image.blockAt ref).body → image.Made session ref

namespace Homely

variable {session : Session}

theorem made_mono {ref : BlockRef} (made : before.Made session ref)
    (same : after.blockAt ref = before.blockAt ref) (continues : before.Continues after) :
    after.Made session ref := by
  cases made with
  | intro closure moment evaluates next leadsHome =>
      exact .intro (same.trans closure) moment evaluates next (leadsHome.mono continues)

/-- Where methods and blocks are the same and frames stay where they are. -/
theorem of_eq (homely : before.Homely session) (methods : after.methods = before.methods)
    (blocks : after.heap.blocks = before.heap.blocks) (continues : before.Continues after) :
    after.Homely session := by
  have sameMethod : ∀ ref, after.methodAt ref = before.methodAt ref := fun ref => by
    rw [methodAt, methods, ← methodAt]
  have sameBlock : ∀ ref, after.blockAt ref = before.blockAt ref := fun ref => by
    rw [blockAt, blocks, ← blockAt]
  constructor
  · intro ref
    rw [sameMethod]
    exact homely.methods ref
  · intro ref
    rw [sameBlock]
    exact homely.blocks ref
  · intro ref clings
    rw [sameBlock] at clings
    exact made_mono (homely.made ref clings) (sameBlock ref) continues

theorem of_develops (homely : before.Homely session) (developed : before.Develops after) :
    after.Homely session := by
  have continues : before.Continues after := .of_eq developed.blocks developed.frames
  have sameBlock : ∀ ref, after.blockAt ref = before.blockAt ref := fun ref => by
    rw [blockAt, developed.blocks, ← blockAt]
  constructor
  · intro ref
    rcases developed.methods ref with same | prepared
    · rw [same]
      exact homely.methods ref
    · exact prepared.sealed
  · intro ref
    rw [sameBlock]
    exact homely.blocks ref
  · intro ref clings
    rw [sameBlock] at clings
    exact made_mono (homely.made ref clings) (sameBlock ref) continues

theorem addBlock (homely : image.Homely session) {closure : Closure}
    (closed : ∀ code ∈ closure.body, code.Sealed)
    (made : Code.AnyClings closure.body →
      (image.addBlock closure).Made session image.heap.blocks.next) :
    (image.addBlock closure).Homely session := by
  have found : ∀ ref, (image.addBlock closure).blockAt ref =
      if ref = image.heap.blocks.next then closure else image.blockAt ref :=
    fun ref => Arena.get_push _ _ _
  constructor
  · exact homely.methods
  · intro ref
    rw [found]
    split
    · exact closed
    · exact homely.blocks ref
  · intro ref clings
    by_cases new : ref = image.heap.blocks.next
    · rw [found, if_pos new] at clings
      rw [new]
      exact made clings
    · have same := (found ref).trans (if_neg new)
      rw [same] at clings
      exact made_mono (homely.made ref clings) same (.addBlock image closure)

theorem of_codeless (codeless : image.Codeless) : image.Homely session := by
  have empty : ∀ ref, (image.blockAt ref).body = [] := by
    intro ref
    rw [blockAt, Arena.get_of_size_eq_zero codeless.blocks]
    rfl
  constructor
  · intro ref
    rw [Method.body_of_bodiless (codeless.methods ref)]
    intro code member
    cases member
  · intro ref
    rw [empty]
    intro code member
    cases member
  · intro ref clings
    rw [empty] at clings
    cases clings 0

end Homely

end Image

namespace Discipline

/-- Whether an escape, if it is a return, is to the frame of a method that is still running. -/
def Homebound (image : Image) : Escape → Prop
  | .unwinding _ home =>
      (image.frameAt home).live = true ∧ (image.frameAt home).method.isSome = true
  | _ => True

/-- The discipline of returning home. -/
def homing (session : Session) : Discipline where
  Holds := Image.Homely session
  Later := Image.Continues
  Good := fun _ _ => True
  Fine := Homebound
  Fits := fun image frame code => code.Sealed ∧ (code.Clings →
    ∃ running below, session.Underway (running :: below) ∧ image.LeadsHome session running frame)
  Runs := fun _ _ => True
  Begun := fun running => ∃ below, session.Underway (running :: below)
  Here := fun frame code image =>
    ∃ running below, session.Underway (running :: below) ∧ running.Evaluates frame code image
  Given := fun _ _ _ _ => True

section Laws

variable {session : Session} {image : Image} {activation : Activation} {frame : Frame}
  {body : List Code}

theorem homing_act {action : Action} (simple : action.IsSimple)
    (homely : image.Homely session) : (homing session).Steps image (action.perform image) := by
  obtain ⟨methods, blocks, frames⟩ := simple.perform image
  exact ⟨homely.of_eq methods blocks (.of_eq blocks frames), .of_eq blocks frames⟩

/-- The frame of a method is its own home. -/
theorem leadsHome_method {budget : Nat} {ref : MethodRef} {arguments : List Value}
    {below : List Running}
    (moment : session.Underway (⟨budget + 1, .method ref arguments, image⟩ :: below))
    (opened : (Activation.method ref arguments).opening? image = some (frame, body)) :
    (image.addFrame frame).LeadsHome session ⟨budget + 1, .method ref arguments, image⟩
      image.heap.frames.next := by
  have own : Running.frame? ⟨budget + 1, .method ref arguments, image⟩ =
      some image.heap.frames.next := by
    simp only [Running.frame?, opened, Option.map_some]
  have entered := image.frameAt_addFrame_next frame
  have shape : frame.parent = none ∧ frame.method = some ref := by
    cases Activation.opens_of_opening opened with
    | method _ _ => exact ⟨rfl, rfl⟩
  refine .intro own (.method moment rfl) rfl own (.here ?_ ?_) ?_
  · exact (Arena.has_push _ _ _).mpr (Or.inr rfl)
  · rw [entered]
    exact shape.1
  · rw [entered]
    exact shape.2

/-- The frame of a block leads to the home of its maker. -/
theorem leadsHome_block {budget : Nat} {ref : BlockRef} {arguments : List Value}
    (made : image.Made session ref) :
    (image.addFrame (image.blockFrame ref arguments)).LeadsHome session
      ⟨budget + 1, .block ref arguments, image⟩ image.heap.frames.next := by
  cases made with
  | intro closure moment evaluates next leadsHome =>
      cases leadsHome with
      | intro own at' method homeOwn leads named =>
          have entered := image.frameAt_addFrame_next (image.blockFrame ref arguments)
          have continues := Image.Continues.addFrame image (image.blockFrame ref arguments)
          refine .intro rfl (.block rfl closure moment evaluates next at') method homeOwn
            (.up ?_ ?_ leads.has (continues.leads leads)) ?_
          · exact (Arena.has_push _ _ _).mpr (Or.inr rfl)
          · rw [entered]
            exact congrArg Closure.captured closure
          · rw [continues.methods _ leads.has_home]
            exact named

theorem homing_enter {budget : Nat} {below : List Running} (homely : image.Homely session)
    (moment : session.Underway (⟨budget + 1, activation, image⟩ :: below))
    (opened : activation.opening? image = some (frame, body)) {code : Code}
    (member : code ∈ body) :
    (homing session).Fits (image.addFrame frame) image.heap.frames.next code := by
  have kind := Activation.opens_of_opening opened
  cases kind with
  | @method ref receiver operands routine behavior count =>
      have closed : ∀ code ∈ routine.body, code.Sealed := by
        have all := homely.methods ref
        simp only [Method.body, behavior] at all
        exact all
      exact ⟨closed code member, fun _ => ⟨_, below, moment, leadsHome_method moment opened⟩⟩
  | @block ref arguments =>
      refine ⟨homely.blocks ref code member, fun clings => ?_⟩
      exact ⟨_, below, moment, leadsHome_block (homely.made ref (clings.any member))⟩

theorem homing_block {ref : FrameRef} {parameters temporaries : Nat} {captures : Bool}
    (homely : image.Homely session)
    (fits : (homing session).Fits image ref (.block parameters temporaries captures body))
    (here : (homing session).Here ref (.block parameters temporaries captures body) image) :
    (image.addBlock
      { captured := if captures then some ref else none, parameters, temporaries, body }).Homely
      session := by
  obtain ⟨closed, bound⟩ := fits
  cases closed with
  | block _ needless inside =>
      refine homely.addBlock (Code.sealed_of_raised inside) fun clings => ?_
      have captured : captures = true := by
        cases captures with
        | true => rfl
        | false => cases (needless rfl).symm.trans (clings 0)
      obtain ⟨running, below, moment, leadsHome⟩ := bound clings.block
      obtain ⟨maker, belowToo, momentToo, evaluates⟩ := here
      cases Session.eq_of_frame? moment momentToo leadsHome.own evaluates.frame?_eq
      refine .intro ?_ moment evaluates rfl (leadsHome.mono (.addBlock image _))
      rw [Image.blockAt, Image.addBlock, Arena.get_push_next, captured, if_pos rfl]

/-- A return that is not to the frame that is left is to a frame that stays live. -/
theorem homing_leave {after : Image} (opened : activation.opening? image = some (frame, body))
    (later : (image.addFrame frame).Continues after) {escape : Escape}
    (bound : Homebound after escape)
    (other : activation.isMethod = true →
      ∀ value, escape ≠ .unwinding value image.heap.frames.next) :
    Homebound ((Action.leave image.heap.frames.next).perform after) escape := by
  cases escape with
  | failed exception => trivial
  | exhausted | stopped => trivial
  | unwinding value home =>
      have apart : home ≠ image.heap.frames.next := by
        intro same
        subst same
        cases Activation.opens_of_opening opened with
        | method _ _ => exact other rfl value rfl
        | @block ref arguments =>
            have named := bound.2
            rw [later.methods _ ((Arena.has_push _ _ _).mpr (Or.inr rfl)),
              Image.frameAt_addFrame_next] at named
            cases named
      have same : ((Action.leave image.heap.frames.next).perform after).frameAt home =
          after.frameAt home := by
        simp only [Action.perform, Image.changeFrame, Image.frameAt, Arena.get_modify]
        exact if_neg fun both => apart both.1
      rw [Homebound, same]
      exact bound

theorem homing_laws (session : Session) : (homing session).Laws where
  toOrder := ⟨Image.Continues.refl, Image.Continues.trans⟩
  toValues := .of_any (homing session) fun _ _ => trivial
  toEscapes := {
    exhausted := fun _ => trivial
    stopped := fun _ => trivial
    failed := fun _ _ _ => trivial
    traced := fun _ _ => trivial
    unwound := fun _ => trivial }
  toPrograms := {
    carry := fun continues ⟨closed, bound⟩ => ⟨closed, fun clings => by
      obtain ⟨running, below, moment, leadsHome⟩ := bound clings
      exact ⟨running, below, moment, leadsHome.mono continues⟩⟩
    parts := fun ⟨closed, bound⟩ part member =>
      ⟨closed.parts part member, fun clings => bound (clings.of_part member)⟩
    literal := fun _ _ _ => trivial
    read := fun _ _ _ => trivial
    write := fun {image _ slot _ value home} homely _ _ _ =>
      have continues := Image.Continues.setSlot image home slot.kind slot.index value
      ⟨homely.of_eq rfl rfl continues, continues⟩
    unwritten := fun _ _ _ => trivial
    readField := fun {image frame site index} homely _ => by
      have simple : (Action.readFieldAt site (image.frameAt frame).receiver index).IsSimple :=
        trivial
      exact ⟨homing_act simple homely, fun _ => trivial⟩
    writeField := fun {image frame site index _ value} homely _ _ _ => by
      have simple :
          (Action.writeFieldAt site (image.frameAt frame).receiver index value).IsSimple := trivial
      exact ⟨homing_act simple homely, fun _ => trivial⟩
    block := fun homely fits here => ⟨homing_block homely fits here, .addBlock _ _⟩
    answer := fun {image frame code span value} _ fits _ live => by
      obtain ⟨running, below, moment, leadsHome⟩ := fits.2 fun _ => rfl
      cases leadsHome with
      | intro _ _ _ _ leads named =>
          refine ⟨live, ?_⟩
          rw [leads.outermost, named]
          rfl
    resolve := fun {image _ _ site selector receiver} homely _ _ _ _ => by
      have simple : (Action.resolve site selector receiver).IsSimple := trivial
      exact ⟨homing_act simple homely, fun _ _ _ _ => trivial⟩
    resolveSuper := fun {_ image _ site origin selector _} _ _ _ homely _ => by
      have simple : (Action.resolveSuper site origin selector).IsSimple := trivial
      exact ⟨homing_act simple homely, fun _ _ _ _ => trivial⟩ }
  toActivations := {
    found := fun _ _ _ _ _ _ => trivial
    called := fun _ _ _ _ _ => trivial
    arguments := fun _ _ _ => trivial
    accompanied := fun _ _ _ => trivial
    calls := fun _ _ _ => trivial
    puts := fun {_ _ _ ref value} homely _ _ place => by
      have simple : (Action.setElement ref place value).IsSimple := trivial
      exact homing_act simple homely
    assigns := fun {_ _ _ receiver place value} homely _ _ _ _ => by
      have simple : (Action.writeField receiver place value).IsSimple := trivial
      exact homing_act simple homely
    nested := fun ⟨_, moment⟩ asks => ⟨_, .nested moment asks⟩
    here := fun ⟨below, moment⟩ evaluates => ⟨_, below, moment, evaluates⟩
    given := fun _ _ _ => trivial
    enter := fun {_ _ image frame _} homely _ ⟨_, moment⟩ opened =>
      ⟨homely.of_eq rfl rfl (.addFrame image frame),
        fun _ member => homing_enter homely moment opened member⟩
    leave := fun {_ image frame _ after} _ _ opened later homely =>
      have continues := Image.Continues.leave after image.heap.frames.next
      ⟨⟨homely.of_eq rfl rfl continues,
          ((Image.Continues.addFrame image frame).trans later).trans continues⟩,
        fun _ _ => trivial, fun _ bound other => homing_leave opened later bound other⟩ }
  act := fun {image action} homely may => by
    refine homing_act ?_ homely
    cases action <;> first | exact may.elim | trivial

end Laws

end Discipline

end MessageMachine
