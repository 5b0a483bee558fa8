import MessageMachine.Proofs.CacheStates
import MessageMachine.Proofs.Invariance
import MessageMachine.Proofs.ShapeEvolution
import MessageMachine.Proofs.Soundness
import MessageMachine.Proofs.Timeline

/-!
# The history of a session

A session takes its image from one state to the next by allowed actions, and it takes none of the
telling ones without a reason.  A send site is asked when the parts of a send of its own have come
to values, and for the receiver among these values.  A field is written when an assignment is
evaluated, when the operation that writes fields is run, or when the host asks for it.  A method is
taken out of a dictionary when the host asks for that.

Every image that a session goes through has a history of this kind.  What is known of the images
that sequences of actions lead to is so known at every moment of every session.
-/

namespace MessageMachine

namespace Session

/-- Whether the parts of an expression come to values in the course of a session, and in which
image. -/
inductive Supplies (session : Session) (frame : FrameRef) (code : Code) (values : List Value)
    (image : Image) : Prop
  | intro {running : Running} {below : List Running} {earlier : Image} :
      session.Underway (running :: below) → running.Evaluates frame code earlier →
      Code.evaluateAll running.machine frame code.parts earlier = .ok values image →
      Supplies session frame code values image

/-- Whether a value is written to a field in the course of a session. -/
inductive Writes (session : Session) : Value → Nat → Value → Prop
  | assignment {frame : FrameRef} {site : FieldSiteRef} {index : Nat} {code : Code} {value : Value}
      {image : Image} : session.Supplies frame (.writeField site index code) [value] image →
      Writes session (image.frameAt frame).receiver index value
  | operation {budget : Nat} {ref : MethodRef} {arguments : List Value} {begun : Image}
      {below : List Running} {primitive : Primitive} {receiver : Value} {index : Nat}
      {value : Value} : session.Underway (⟨budget + 1, .method ref arguments, begun⟩ :: below) →
      (begun.methodAt ref).behavior = .primitive primitive →
      primitive.Assigns begun arguments receiver index value → Writes session receiver index value
  | request {receiver : Value} {index : Nat} {value : Value} {served : Image} :
      session.Serves (.writeField receiver index value) served → Writes session receiver index value

/-- Whether a session has a reason to take an action. -/
def Does (session : Session) : Action → Prop
  | .resolve site selector receiver => ∃ frame code operands image,
      code.sending? = some (site, selector) ∧
        session.Supplies frame code (receiver :: operands) image
  | .resolveSuper site origin selector => ∃ frame codes operands image,
      session.Supplies frame (.superSend site origin selector codes) operands image
  | .writeField receiver index value => session.Writes receiver index value
  | .writeFieldAt _ receiver index value => session.Writes receiver index value
  | .remove holder selector => .removeMethod holder selector ∈ session.requests
  | _ => True

theorem Does.writes {session : Session} {action : Action} (does : session.Does action)
    {receiver : Value} {index : Nat} {value : Value}
    (assigned : action.assigns = some (receiver, index, value)) :
    session.Writes receiver index value := by
  cases action with
  | writeField | writeFieldAt =>
      cases assigned
      exact does
  | _ => cases assigned

/-- A sequence of actions from one image to another that a session has reason to take. -/
structure Takes (session : Session) (start : Image) (actions : List Action) (image : Image) :
    Prop where
  reaches : start.Reaches actions image
  does : ∀ action ∈ actions, session.Does action

namespace Takes

variable {session : Session} {start between image : Image} {earlier later : List Action}

theorem refl (session : Session) (image : Image) : session.Takes image [] image :=
  ⟨.start, List.forall_mem_nil _⟩

theorem trans (before : session.Takes start earlier between)
    (after : session.Takes between later image) : session.Takes start (earlier ++ later) image where
  reaches := before.reaches.trans after.reaches
  does := List.forall_mem_append.mpr ⟨before.does, after.does⟩

theorem single {action : Action} (allowed : action.Allowed image) (does : session.Does action) :
    session.Takes image [action] (action.perform image) where
  reaches := .single allowed
  does := List.forall_mem_singleton.mpr does

end Takes

end Session

namespace Discipline

/-- The discipline of taking actions for a reason. -/
def recording (session : Session) : Discipline where
  Holds := fun image => ∃ actions, session.Takes session.start actions image
  Later := fun image after => ∃ actions, session.Takes image actions after
  Good := fun image value => value.Exists image
  Fine := fun image escape => ∀ value home, escape = .unwinding value home → value.Exists image
  Fits := fun image _ code => ∀ node ∈ code.outline, image.Outlines node
  Runs := fun image activation => activation.Known image
  Begun := fun running => ∃ below, session.Underway (running :: below)
  Here := fun _ _ _ => True
  Given := session.Supplies

section Laws

variable {session : Session} {image : Image}

theorem recording_act {action : Action} (history : (recording session).Holds image)
    (allowed : action.Allowed image) (does : session.Does action) :
    (recording session).Steps image (action.perform image) := by
  obtain ⟨actions, taken⟩ := history
  exact ⟨⟨_, taken.trans (.single allowed does)⟩, _, .single allowed does⟩

theorem recording_extended {after : Image} (later : (recording session).Later image after) :
    image.Extends after := by
  obtain ⟨_, taken⟩ := later
  exact taken.reaches.extended

variable (begun : session.start.WellFormed)

include begun in
theorem recording_formed (history : (recording session).Holds image) : image.WellFormed := by
  obtain ⟨_, taken⟩ := history
  exact taken.reaches.wellFormed begun

/-- What a send at a site is resolved to is asked for with the values of the parts of the send. -/
theorem recording_resolve {ref : FrameRef} {code : Code} {site : CallSiteRef} {selector : Selector}
    {receiver : Value} (history : (recording session).Holds image)
    (provided : ∀ node ∈ code.outline, image.Outlines node)
    (sending : code.sending? = some (site, selector)) (known : receiver.Exists image)
    (supplied : ∃ operands earlier, session.Supplies ref code (receiver :: operands) earlier) :
    let answer := image.lookupAt site selector receiver
    (recording session).Steps image answer.2 ∧ ∀ method, answer.1 = some method →
      ∀ operands, (recording session).AllGood answer.2 operands →
      (recording session).Runs answer.2 (.method method (receiver :: operands)) := by
  have allowed : (Action.resolve site selector receiver).Allowed image :=
    ⟨known, sends_of_sending? provided sending⟩
  obtain ⟨operands, earlier, supplies⟩ := supplied
  refine ⟨recording_act history allowed ⟨ref, code, operands, earlier, sending, supplies⟩, ?_⟩
  exact fun _ _ _ allKnown => .cons (known.mono (Action.extends_perform allowed)) allKnown

include begun

theorem recording_resolveSuper {earlier : Image} {ref : FrameRef} {site : CallSiteRef}
    {origin : ClassRef} {selector : Selector} {codes : List Code}
    (before : (recording session).Holds earlier)
    (provided : ∀ node ∈ (Code.superSend site origin selector codes).outline,
      earlier.Outlines node)
    (later : (recording session).Later earlier image) (history : (recording session).Holds image)
    (supplied : ∃ operands,
      session.Supplies ref (.superSend site origin selector codes) operands image) :
    let answer := image.lookupSuperAt site origin selector
    (recording session).Steps image answer.2 ∧ ∀ method, answer.1 = some method →
      ∀ operands, (recording session).AllGood answer.2 operands →
      (recording session).Runs answer.2
        (.method method ((earlier.frameAt ref).receiver :: operands)) := by
  have extended := recording_extended later
  have allowed : (Action.resolveSuper site origin selector).Allowed image :=
    (provided _ List.mem_cons_self).mono extended
  have known := ((recording_formed begun before).within.frames ref).receiver
  obtain ⟨operands, supplies⟩ := supplied
  refine ⟨recording_act history allowed ⟨ref, codes, operands, image, supplies⟩, ?_⟩
  exact fun _ _ _ allKnown =>
    .cons (known.mono (extended.trans (Action.extends_perform allowed))) allKnown

theorem recording_programs : (recording session).Programs where
  carry := fun later provided node found => (provided node found).mono (recording_extended later)
  parts := fun provided part member node found =>
    provided node (Code.outline_of_part member found)
  literal := fun _ _ _ => trivial
  read := fun _ _ _ => nofun
  write := fun {image _ slot _ value home} history _ known _ => by
    have allowed : (Action.setSlot home slot.kind slot.index value).Allowed image := known
    exact recording_act history allowed trivial
  unwritten := fun _ _ _ => nofun
  readField := fun {image frame site index} history provided => by
    have known := ((recording_formed begun history).within.frames frame).receiver
    have allowed : (Action.readFieldAt site (image.frameAt frame).receiver index).Allowed image :=
      ⟨known, Or.inl (provided _ List.mem_cons_self)⟩
    exact ⟨recording_act history allowed trivial, fun _ => nofun⟩
  writeField := fun {image frame site index _ value} history provided incoming supplied => by
    have known := ((recording_formed begun history).within.frames frame).receiver
    have allowed : (Action.writeFieldAt site (image.frameAt frame).receiver index value).Allowed
        image := ⟨known, incoming, Or.inr (provided _ List.mem_cons_self)⟩
    exact ⟨recording_act history allowed (.assignment supplied), fun _ => nofun⟩
  block := fun {_ frame parameters temporaries captures body} history provided _ => by
    have allowed : (Action.makeBlock
        { captured := if captures then some frame else none, parameters, temporaries,
          body }).Allowed _ := fun node found => provided node (List.mem_cons_of_mem _ found)
    exact recording_act history allowed trivial
  answer := fun _ _ known _ _ _ same => by
    cases same
    exact known
  resolve := fun history provided sending known supplied =>
    recording_resolve history provided sending known supplied
  resolveSuper := fun before provided later history supplied =>
    recording_resolveSuper begun before provided later history supplied

theorem recording_activations : (recording session).Activations where
  found := fun _ known _ later _ allKnown =>
    .cons (known.mono (recording_extended later)) allKnown
  called := fun {_ image _} _ known _ later _ =>
    ⟨Nat.lt_of_lt_of_le known (recording_extended later).blocks, .nil image⟩
  arguments := fun known => known
  accompanied := fun _ _ _ => nofun
  calls := fun history performs calls => by
    obtain ⟨_, _, _, known, _⟩ := performs
    exact known_of_calls (recording_formed begun history) known calls
  puts := fun {image primitive arguments ref value} history performs puts place => by
    obtain ⟨_, _, _, known, _⟩ := performs
    have allKnown : Value.AllExist image arguments := known
    have allowed : (Action.setElement ref place value).Allowed image := allKnown value puts.mem
    exact recording_act history allowed trivial
  assigns := fun {image primitive arguments receiver place value} history performs assigns known
      incoming => by
    obtain ⟨_, _, ⟨_, underway⟩, _, behavior⟩ := performs
    have allowed : (Action.writeField receiver place value).Allowed image := ⟨known, incoming⟩
    exact recording_act history allowed (.operation underway behavior assigns)
  nested := fun ⟨_, underway⟩ asks => ⟨_, .nested underway asks⟩
  here := fun _ _ => trivial
  given := fun ⟨_, underway⟩ evaluates evaluated => .intro underway evaluates evaluated
  enter := fun {_ activation image frame _} history known _ opened => by
    obtain ⟨allowed, outlined⟩ := enters_of_opening (recording_formed begun history) known opened
    have entered := recording_act history allowed trivial
    exact ⟨entered.1, fun code member node found =>
      (outlined code member node found).mono (recording_extended entered.2)⟩
  leave := fun {activation image frame body after} history known opened later historyAfter => by
    obtain ⟨entering, -⟩ := enters_of_opening (recording_formed begun history) known opened
    have allowed : (Action.leave image.heap.frames.next).Allowed after := trivial
    have extended := Action.extends_perform allowed
    have left := recording_act historyAfter allowed trivial
    refine ⟨⟨left.1, ?_⟩, fun _ known => known.mono extended, ?_⟩
    · obtain ⟨_, during⟩ := later
      obtain ⟨_, ending⟩ := left.2
      exact ⟨_, ((Session.Takes.single entering trivial).trans during).trans ending⟩
    · exact fun _ fine _ value home same => (fine value home same).mono extended

theorem recording_laws : (recording session).Laws where
  toOrder := ⟨fun image => ⟨[], .refl session image⟩,
    fun ⟨_, before⟩ ⟨_, after⟩ => ⟨_, before.trans after⟩⟩
  toValues := .of_existing rfl (fun _ => recording_formed begun) fun _ _ => recording_extended
  toEscapes := {
    exhausted := fun _ => nofun
    stopped := fun _ => nofun
    failed := fun _ _ _ => nofun
    traced := fun _ _ => nofun
    unwound := fun fine => fine _ _ rfl }
  toPrograms := recording_programs begun
  toActivations := recording_activations begun
  act := fun {image action} history may => by
    refine recording_act history ?_ ?_
    · cases action <;> first | exact may | exact may.elim
    · cases action <;> first | exact may.elim | trivial

end Laws

section Requests

variable {session : Session} {request : Request} {image : Image}

/-- A session has a reason for what its requests come to. -/
theorem recording_still (begun : session.start.WellFormed)
    (serves : session.Serves request image) (admissible : request.Admissible image)
    (still : request.evaluation? = none) (history : (recording session).Holds image) :
    (recording session).Steps image (request.serve (.ofBudget session.budget) image).2 := by
  have laws := recording_laws begun
  have formed := recording_formed begun history
  rcases Request.action_or_built formed admissible still with ⟨action, found⟩ | built
  · rw [Request.serve_of_action? found]
    refine recording_act history (Request.allowed_of_action? formed admissible found) ?_
    cases request with
    | removeMethod holder selector =>
        cases found
        exact serves.mem
    | writeField receiver index value =>
        cases found
        exact .request serves
    | instantiate | makeArray | detach | setGlobal | readField | meet =>
        cases found
        trivial
    | _ => cases found
  · refine built.induction ⟨history, laws.refl image⟩ fun definition ⟨history, later⟩ => ?_
    have stepped := recording_act history definition.allowed (by cases definition <;> trivial)
    exact ⟨stepped.1, laws.trans later stepped.2⟩

/-- What is evaluated for a request mentions existing things. -/
theorem recording_evaluates (begun : session.start.WellFormed) {machine : Machine}
    {body : Machine → Eval Value} (admissible : request.Admissible image)
    (evaluation : request.evaluation? = some body) (history : (recording session).Holds image) :
    (recording session).Evaluates machine image body := by
  have laws := recording_laws begun
  cases request with
  | send selector receiver operands =>
      cases evaluation
      refine Keeps.bind laws.toOrder (laws.meet history selector) fun _ _ historyMet later _ => ?_
      exact send_keeps laws historyMet selector (laws.keepAll later admissible)
  | deliver selector arguments =>
      cases evaluation
      cases arguments with
      | nil => exact Keeps.throw laws.toOrder history rfl nofun
      | cons receiver operands => exact send_keeps laws history selector admissible
  | invoke method receiver operands =>
      cases evaluation
      exact Keeps.activate laws.toOrder history admissible
  | activate activation =>
      cases evaluation
      exact Keeps.activate laws.toOrder history admissible
  | _ => cases evaluation

variable (begun : session.start.WellFormed)
  (admissible : ∀ {request image}, session.Serves request image → request.Admissible image)
include begun admissible

/-- Every image of a session has a history. -/
theorem always_recorded : session.Always (recording session).Holds :=
  Discipline.always (recording_laws begun) (fun underway => ⟨_, underway⟩)
    ⟨[], .refl session session.start⟩
    (fun serves still history =>
      (recording_still begun serves (admissible serves) still history).1)
    fun serves evaluation history =>
      recording_evaluates begun (admissible serves) evaluation history

theorem recording_hosts : (recording session).Hosts session where
  begun := fun underway => ⟨_, underway⟩
  evaluates := fun serves evaluation => recording_evaluates begun (admissible serves) evaluation
    ((always_recorded begun admissible).served serves)

/-- Histories tell the time: what is taken later is taken from where the session has got to. -/
theorem histories_clock : (recording session).Clock session (recording session).Later where
  refl := (recording_laws begun).refl
  trans := (recording_laws begun).trans
  later := id
  enter := fun history known opened => by
    obtain ⟨allowed, -⟩ := enters_of_opening (recording_formed begun history) known opened
    exact (recording_act history allowed trivial).2
  leave := fun image ref => by
    have allowed : (Action.leave ref).Allowed image := trivial
    exact ⟨_, .single allowed trivial⟩
  serve := fun {request image} serves => by
    cases evaluation : request.evaluation? with
    | none =>
        have history := (always_recorded begun admissible).served serves
        exact (recording_still begun serves (admissible serves) evaluation history).2
    | some body =>
        rw [Request.serve_of_evaluation evaluation]
        have obeys := (recording_hosts begun admissible).obeys (recording_laws begun) serves
          evaluation
        exact obeys.yields.left_later

end Requests

end Discipline

open Discipline

namespace Session.Moment

variable {session : Session} (begun : session.start.WellFormed)
  (admissible : ∀ {request image}, session.Serves request image → request.Admissible image)
  (moment : session.Moment) {values : List Value} {between : Image}
  (supplied : Code.evaluateAll moment.running.machine moment.frame moment.code.parts moment.image =
    .ok values between)
include begun admissible supplied

/-- Once the parts of an expression have values, the image has a history, and the nodes of the
expression are still there. -/
theorem recorded :
    (∃ actions, session.Takes session.start actions between) ∧
      (∀ node ∈ moment.code.outline, between.Outlines node) ∧
      Value.AllExist between values ∧ values.length = moment.code.parts.length := by
  have laws := recording_laws begun
  have hosts := recording_hosts begun admissible
  rcases moment with ⟨_, below, place, _, code, image, underway, evaluates⟩
  cases evaluates with
  | @intro budget activation started _ frame body _ _ opened visited =>
      have visit := hosts.visit laws underway opened (Code.visits_iff.mpr ⟨place, visited⟩)
      have supplied : Code.evaluateAll (.ofBudget budget) started.heap.frames.next code.parts
        image = .ok values between := supplied
      have yielded := (visit.parts laws).yields
      rw [supplied] at yielded
      cases yielded with
      | ok history later covers =>
          exact ⟨history, laws.carry later (visit.ready.fits code List.mem_cons_self), covers⟩

omit begun admissible in
/-- What the expression comes to is what it makes of the values of its parts. -/
theorem result_eq_finish :
    moment.result = moment.code.finish moment.running.machine moment.frame
      (moment.image.frameAt moment.frame).receiver values between := by
  rw [result, Code.evaluate_eq]
  simp only [Bind.bind, EStateM.bind, supplied]

end Session.Moment

/-- A control message is run on the spot, or its site is asked for a method.  All that happens first
is that the message settles on being sent. -/
theorem Machine.controlAt_runs_or_asks (machine : Machine) (controlSite : ControlSiteRef)
    (message : ControlMessage) (site : CallSiteRef) (selector : Selector) (receiver : Value)
    (operands : List Value) (image : Image) :
    (∃ run, message.run? machine image receiver operands = some run ∧
      machine.controlAt controlSite message site selector receiver operands image = run image) ∨
    ∃ actions asked, (∀ session : Session, session.Takes image actions asked) ∧
      asked.methods = image.methods ∧
      asked.lookupFor receiver selector = image.lookupFor receiver selector ∧
      machine.controlAt controlSite message site selector receiver operands image =
        machine.sendAt site selector receiver operands asked := by
  cases controls : image.sites.controls.get controlSite with
  | generic =>
      refine Or.inr ⟨[], image, fun session => .refl session image, rfl, rfl, ?_⟩
      rw [controlAt, Eval.get_bind]
      simp only [controls]
  | specialized =>
      cases found : message.run? machine image receiver operands with
      | some run =>
          refine Or.inl ⟨run, rfl, ?_⟩
          rw [controlAt, Eval.get_bind]
          simp only [controls, found]
      | none =>
          let settled := image.generalizeControl controlSite
          let noting := Action.noteDown (settled.note fun image =>
            .controlGeneralized selector controlSite (image.text? receiver)).journal
          refine Or.inr ⟨[.settle controlSite] ++ [noting], noting.perform settled,
            fun session => ?_, rfl, ?_, ?_⟩
          · have settles : session.Takes image [.settle controlSite] settled :=
              .single trivial trivial
            exact settles.trans (.single trivial trivial)
          · have classes : (noting.perform settled).classes = image.classes := rfl
            exact Image.lookup_of_classes classes (image.classOf receiver) selector
          · rw [controlAt, Eval.get_bind, ← settled.note_eq_perform]
            simp only [controls, found]
            rfl

theorem Machine.sendAt_of_lookupAt {machine : Machine} {site : CallSiteRef} {selector : Selector}
    {receiver : Value} {operands : List Value} {image : Image} {found : Option MethodRef}
    (resolved : (image.lookupAt site selector receiver).1 = found) :
    machine.sendAt site selector receiver operands image =
      machine.dispatch found selector (receiver :: operands)
        (image.lookupAt site selector receiver).2 := by
  rw [← resolved]
  rfl

theorem Machine.sendSuperAt_of_lookupSuperAt {machine : Machine} {site : CallSiteRef}
    {origin : ClassRef} {selector : Selector} {receiver : Value} {operands : List Value}
    {image : Image} {found : Option MethodRef}
    (resolved : (image.lookupSuperAt site origin selector).1 = found) :
    machine.sendSuperAt site origin selector receiver operands image =
      machine.dispatch found selector (receiver :: operands)
        (image.lookupSuperAt site origin selector).2 := by
  rw [← resolved]
  rfl

theorem Session.wellFormed_fresh (platform : Platform) (settings : Settings) (listening : Bool)
    (budget : Nat) (requests : List Request) :
    (fresh platform settings listening budget requests).start.WellFormed := by
  rw [start_fresh]
  exact Image.wellFormed_initial platform settings listening

section Sessions

variable {platform : Platform} {settings : Settings} {listening : Bool} {budget : Nat}
  {requests : List Request}
  (admissible : Request.Throughout (.ofBudget budget)
    (fun image request => request.Admissible image) requests
    (.initial platform settings listening))

section Moments

variable (moment : (Session.fresh platform settings listening budget requests).Moment)
  {values : List Value} {between : Image}
  (supplied : Code.evaluateAll moment.running.machine moment.frame moment.code.parts moment.image =
    .ok values between)
include admissible supplied

/-- What is known in general once the parts of an expression have values. -/
theorem recorded_fresh :
    (∃ actions, (Session.fresh platform settings listening budget requests).Takes
        (.initial platform settings listening) actions between) ∧
      (∀ node ∈ moment.code.outline, between.Outlines node) ∧
      Value.AllExist between values ∧ values.length = moment.code.parts.length := by
  have begun := Session.wellFormed_fresh platform settings listening budget requests
  have recorded := moment.recorded begun admissible.of_fresh supplied
  rwa [Session.start_fresh] at recorded

omit admissible supplied in
/-- Sites are in tune with the dictionaries as long as the host takes no methods out of them. -/
theorem Session.Takes.attuned {session : Session} {actions : List Action} {image : Image}
    (taken : session.Takes (.initial platform settings listening) actions image)
    (kept : ∀ request ∈ session.requests, request.removes = false) :
    image.Attuned (Image.initial platform settings listening).methods.size :=
  taken.reaches.attuned fun action member => by
    have does := taken.does action member
    cases action with
    | remove holder selector => cases kept _ does
    | _ => rfl

/-- At every moment of a session that takes no methods out of dictionaries, and as long as fewer
methods were installed than there are words, the send that is evaluated is answered with what a full
lookup finds in the dictionaries of that moment.  Once the receiver and the operands have values,
that method is invoked, or the receiver is told that there is none, unless the message is a control
message that is run on the spot.  What the site of the send remembers makes no difference. -/
theorem sends_follow_lookups (kept : ∀ request ∈ requests, request.removes = false)
    (few : between.methods.size <
      (Image.initial platform settings listening).methods.size + UInt32.size) :
    (∀ site selector receiver operands, moment.code = .send site selector receiver operands →
      ∃ first rest, values = first :: rest ∧
        moment.result = moment.running.machine.dispatch (between.lookupFor first selector) selector
          values (between.lookupAt site selector first).2) ∧
    (∀ controlSite message site selector receiver operands,
      moment.code = .control controlSite message site selector receiver operands →
      ∃ first rest, values = first :: rest ∧
        ((∃ run, message.run? moment.running.machine between first rest = some run ∧
            moment.result = run between) ∨
          ∃ actions asked, Session.Takes (.fresh platform settings listening budget requests)
              between actions asked ∧
            moment.result = moment.running.machine.dispatch (between.lookupFor first selector)
              selector values (Image.lookupAt asked site selector first).2)) ∧
    ∀ site origin selector operands, moment.code = .superSend site origin selector operands →
      moment.result = moment.running.machine.dispatch (between.lookup origin selector) selector
        ((moment.image.frameAt moment.frame).receiver :: values)
        (between.lookupSuperAt site origin selector).2 := by
  obtain ⟨⟨actions, taken⟩, provided, -, covers⟩ := recorded_fresh admissible moment supplied
  have finished := moment.result_eq_finish supplied
  refine ⟨fun site selector receiver operands here => ?_,
    fun controlSite message site selector receiver operands here => ?_,
    fun site origin selector operands here => ?_⟩
  · rw [here] at provided covers finished
    cases values with
    | nil => cases covers
    | cons first rest =>
        refine ⟨first, rest, rfl, ?_⟩
        have sends : between.Sends site selector := sends_of_sending? provided rfl
        rw [finished, Code.finish]
        exact Machine.sendAt_of_lookupAt ((taken.attuned kept).lookupAt few sends first)
  · rw [here] at provided covers finished
    cases values with
    | nil => cases covers
    | cons first rest =>
        refine ⟨first, rest, rfl, ?_⟩
        have sends : between.Sends site selector := sends_of_sending? provided rfl
        rw [finished, Code.finish]
        rcases moment.running.machine.controlAt_runs_or_asks controlSite message site selector first
          rest between with run | ⟨more, asked, takes, methods, same, sent⟩
        · exact Or.inl run
        · have further := takes (.fresh platform settings listening budget requests)
          refine Or.inr ⟨more, asked, further, ?_⟩
          have fewAsked := few
          rw [← methods] at fewAsked
          rw [sent, ← same]
          exact Machine.sendAt_of_lookupAt (((taken.trans further).attuned kept).lookupAt fewAsked
            (sends.mono further.reaches.extended) first)
  · rw [here] at provided finished
    have sends : between.SendsSuper site origin selector := provided _ List.mem_cons_self
    rw [finished, Code.finish]
    exact Machine.sendSuperAt_of_lookupSuperAt ((taken.attuned kept).lookupSuperAt few sends)

/-- The send that is evaluated at a moment is the next entry in the chart of its site. -/
theorem sends_extend_charts (positive : 1 ≤ settings.cacheSize)
    (few : between.methods.size <
      (Image.initial platform settings listening).methods.size + UInt32.size)
    {site : CallSiteRef} {selector : Selector} {receiver : Code} {operands : List Code}
    (here : moment.code = .send site selector receiver operands) :
    ∃ first rest actions, values = first :: rest ∧
      Session.Takes (.fresh platform settings listening budget requests)
        (.initial platform settings listening) actions between ∧
      (Image.initial platform settings listening).Charted between site actions ∧
      Session.Takes (.fresh platform settings listening budget requests)
        (.initial platform settings listening) (actions ++ [.resolve site selector first])
        (between.lookupAt site selector first).2 ∧
      (Image.initial platform settings listening).Charted (between.lookupAt site selector first).2
        site (actions ++ [.resolve site selector first]) := by
  obtain ⟨⟨actions, taken⟩, provided, allKnown, covers⟩ :=
    recorded_fresh admissible moment supplied
  have supplies : Session.Supplies _ moment.frame moment.code values between :=
    .intro moment.underway (Running.evaluates_iff.mpr ⟨moment.place, moment.evaluates⟩) supplied
  rw [here] at provided covers supplies
  cases values with
  | nil => cases covers
  | cons first rest =>
      have allowed : (Action.resolve site selector first).Allowed between :=
        ⟨allKnown.head, sends_of_sending? provided rfl⟩
      have further := taken.trans (.single allowed ⟨_, _, rest, between, rfl, supplies⟩)
      have methods : (between.lookupAt site selector first).2.methods = between.methods := by
        obtain ⟨calls, journal, -, result⟩ := between.lookupAt_eq site selector first
        rw [result]
      have fewAfter := few
      rw [← methods] at fewAfter
      exact ⟨first, rest, actions, rfl, taken, taken.reaches.charted positive few site, further,
        further.reaches.charted positive fewAfter site⟩

end Moments

include admissible

theorem always_recorded_fresh :
    (Session.fresh platform settings listening budget requests).Always fun image =>
      ∃ actions, Session.Takes (.fresh platform settings listening budget requests)
        (.initial platform settings listening) actions image := by
  have begun := Session.wellFormed_fresh platform settings listening budget requests
  refine (always_recorded begun admissible.of_fresh).imp fun image history => ?_
  obtain ⟨actions, taken⟩ := history
  rw [Session.start_fresh] at taken
  exact ⟨actions, taken⟩

/-- At every moment of a session, and as long as fewer methods were installed than there are words,
the state of each send site is charted by a history of the session.  In such a history a site is
asked for a receiver only where a send of the site was evaluated and its parts came to values with
this receiver in front. -/
theorem sites_always_charted (positive : 1 ≤ settings.cacheSize) :
    (Session.fresh platform settings listening budget requests).Always fun image =>
      image.methods.size <
        (Image.initial platform settings listening).methods.size + UInt32.size →
      ∃ actions, Session.Takes (.fresh platform settings listening budget requests)
          (.initial platform settings listening) actions image ∧
        ∀ site, (Image.initial platform settings listening).Charted image site actions :=
  (always_recorded_fresh admissible).imp fun _ ⟨actions, taken⟩ few =>
    ⟨actions, taken, fun site => taken.reaches.charted positive few site⟩

/-- At every moment of a session the shapes of each class form one chain, which ends in the shape
that the class has and is no longer than its inline fields allow.  Every instance records a shape in
the chain of its class. -/
theorem shapes_always_chained :
    (Session.fresh platform settings listening budget requests).Always fun image =>
      (∀ ref, image.classes.Has ref → ∃ chain, image.Chain ref chain ∧
        chain.length ≤ 2 * min (image.classAt ref).fields.length inlineFields + 1) ∧
      ∀ object, image.heap.objects.Has object → ∃ chain,
        image.Chain (image.objectAt object).owner chain ∧
          (image.objectAt object).shape ∈ chain := by
  refine (always_recorded_fresh admissible).imp fun image ⟨actions, taken⟩ => ?_
  have evolved := taken.reaches.evolved
  refine ⟨fun ref known => ?_, fun object known => ?_⟩
  · obtain ⟨chain, chained⟩ := evolved.chains ref known
    exact ⟨chain, chained, chained.length_le⟩
  · have records := evolved.objects object known
    obtain ⟨chain, chained⟩ := evolved.chains _ records.owner
    exact ⟨chain, chained, (chained.members _).mpr ⟨records.known, records.owned⟩⟩

end Sessions

end MessageMachine
