import MessageMachine.Proofs.Correspondence.Hosting
import MessageMachine.Proofs.Preparation

/-!
# Every session is a sequence of actions

What a machine does to its image while it serves a host is a sequence of allowed actions, so that
every invariant of allowed actions holds before and after each request, and at every moment of an
evaluation.  This is the correspondence of a machine with itself: a stage is a well-formed image,
and a later stage is one that allowed actions lead to.
-/

namespace MessageMachine

namespace Code

/-- The nodes of an expression are among the nodes of the expressions that it belongs to. -/
theorem mem_outlineAll {code : Code} {codes : List Code} (member : code ∈ codes)
    {node : OutlineNode} (found : node ∈ code.outline) : node ∈ Code.outlineAll codes := by
  induction codes with
  | nil => cases member
  | cons first rest inductionHypothesis =>
      rw [Code.outlineAll]
      rcases List.mem_cons.mp member with rfl | member
      · exact List.mem_append_left _ found
      · exact List.mem_append_right _ (inductionHypothesis member)

end Code

namespace Correspondence

/-- Whether a frame looks the same to both machines, and code of the first one fits itself there. -/
structure Concurs (C : Correspondence) (stage : C.Stage) (frame : FrameRef) : Prop where
  fits : ∀ {code : Code}, (∀ node ∈ code.outline, (C.first stage).Outlines node) →
    C.Fits stage frame code code
  receiver : C.SameReceiver stage frame
  slot : ∀ slot, (C.second stage).slot? frame slot = (C.first stage).slot? frame slot
  slotHome : ∀ slot, (C.second stage).slotHome? frame slot = (C.first stage).slotHome? frame slot
  outermost : (C.second stage).outermost frame = (C.first stage).outermost frame
  control : ∀ site, (C.second stage).sites.controls.get site =
    (C.first stage).sites.controls.get site
  block : ∀ closure : Closure, (C.first stage).Provides closure.body → ∃ after,
    C.Reached stage ((C.first stage).addBlock closure) ((C.second stage).addBlock closure) after

namespace Concurs

variable {C : Correspondence} {stage : C.Stage} {frame : FrameRef}
  (concurs : C.Concurs stage frame)
include concurs

theorem fitAll {codes : List Code}
    (provided : ∀ node ∈ Code.outlineAll codes, (C.first stage).Outlines node) :
    List.Forall₂ (C.Fits stage frame) codes codes :=
  List.forall₂_same.mpr fun _ member =>
    concurs.fits fun node found => provided node (Code.mem_outlineAll member found)

/-- An expression does the same as itself. -/
theorem paired {code : Code}
    (provided : ∀ node ∈ code.outline, (C.first stage).Outlines node) :
    C.Paired stage frame code code := by
  cases code with
  | self => exact .self concurs.receiver
  | read slot => exact .read (concurs.slot slot)
  | write slot value => exact .write (concurs.slotHome slot) (concurs.fits provided)
  | readField site index =>
      exact .readField concurs.receiver (Or.inl (provided _ List.mem_cons_self))
  | writeField site index value =>
      exact .writeField concurs.receiver (Or.inr (provided _ List.mem_cons_self))
        (concurs.fits fun node found => provided node (List.mem_cons_of_mem _ found))
  | global name => exact .global concurs.receiver
  | literal datum => exact .literal
  | block parameters temporaries captures body =>
      exact .block (concurs.block _ fun node found => provided node (List.mem_cons_of_mem _ found))
  | send site selector receiver operands =>
      refine .send (Or.inl (provided _ List.mem_cons_self)) (concurs.fits fun node found => ?_)
        (concurs.fitAll fun node found => ?_)
      · exact provided node (List.mem_cons_of_mem _ (List.mem_append_left _ found))
      · exact provided node (List.mem_cons_of_mem _ (List.mem_append_right _ found))
  | superSend site origin selector operands =>
      exact .superSend concurs.receiver (provided _ List.mem_cons_self)
        (concurs.fitAll fun node found => provided node (List.mem_cons_of_mem _ found))
  | control controlSite message site selector receiver operands =>
      refine .control (concurs.control controlSite)
        (Or.inr ⟨controlSite, message, provided _ List.mem_cons_self⟩)
        (concurs.fits fun node found => ?_) (concurs.fitAll fun node found => ?_)
      · exact provided node (List.mem_cons_of_mem _ (List.mem_append_left _ found))
      · exact provided node (List.mem_cons_of_mem _ (List.mem_append_right _ found))
  | answer value span => exact .answer concurs.outermost (concurs.fits provided)

end Concurs

/-- A machine side by side with itself. -/
def diagonal : Correspondence where
  Stage := { image : Image // image.WellFormed }
  first := Subtype.val
  second := Subtype.val
  Later stage after := ∃ actions, (∀ action ∈ actions, Action.Internal action) ∧
    stage.val.Reaches actions after.val
  Fits stage _ code other := other = code ∧ ∀ node ∈ code.outline, stage.val.Outlines node
  lenient := False

namespace Diagonal

/-- Both sides take the same action. -/
theorem reached (stage : diagonal.Stage) (action : Action) (internal : action.Internal)
    (allowed : action.Allowed stage.val) :
    ∃ after, diagonal.Reached stage (action.perform stage.val) (action.perform stage.val) after :=
  ⟨⟨action.perform stage.val, Action.wellFormed_perform stage.property allowed⟩,
    ⟨[action], fun _ member => List.mem_singleton.mp member ▸ internal, .single allowed⟩,
    rfl, rfl⟩

theorem concurs (stage : diagonal.Stage) (frame : FrameRef) : diagonal.Concurs stage frame where
  fits := fun provided => ⟨rfl, provided⟩
  receiver := rfl
  slot := fun _ => rfl
  slotHome := fun _ => rfl
  outermost := rfl
  control := fun _ => rfl
  block := fun closure provided => reached stage (.makeBlock closure) trivial provided

theorem laws : diagonal.Laws where
  refl := fun stage => ⟨[], List.forall_mem_nil _, .start⟩
  trans := fun ⟨earlier, internal, before⟩ ⟨later, internalToo, after⟩ =>
    ⟨earlier ++ later, fun action member =>
      (List.mem_append.mp member).elim (internal action) (internalToo action), before.trans after⟩
  alike := fun stage => .refl stage.val
  formed := fun stage => stage.property
  extended := fun ⟨_, _, reached⟩ => reached.extended
  carry := fun ⟨_, _, reached⟩ ⟨same, provided⟩ =>
    ⟨same, fun node found => (provided node found).mono reached.extended⟩
  paired := fun fits => by
    obtain ⟨rfl, provided⟩ := fits
    exact (concurs _ _).paired provided
  act := fun stage action common allowed => reached stage action common.internal allowed
  noted := fun stage describe => by
    have same := Image.note_eq_perform stage.val describe
    obtain ⟨after, later, first, second⟩ := reached stage (.noteDown _) trivial trivial
    exact ⟨after, later, first.trans same.symm, second.trans same.symm⟩
  resolve := fun _ _ _ _ _ _ => rfl
  resolveSuper := fun _ _ _ _ _ => rfl
  enterMethod := fun stage ref routine other receiver operands first second known allKnown => by
    cases first.symm.trans second
    have present : ∀ node ∈ Code.outlineAll routine.body, stage.val.Outlines node :=
      fun node found => ⟨ref, by
        simp only [Method.body]
        rw [show (stage.val.methodAt ref).behavior = _ from first]
        exact found⟩
    obtain ⟨after, reached⟩ := reached stage
      (.enter (.ofMethod ref receiver operands routine.temporaries)) trivial
      (Frame.all_ofMethod trivial ref known allKnown routine.temporaries)
    obtain ⟨_, _, extended⟩ := reached.later
    exact ⟨after, reached, (concurs _ _).fitAll fun node found =>
      (present node found).mono extended.extended⟩
  enterBlock := fun stage ref arguments known allKnown => by
    obtain ⟨after, reached⟩ := reached stage (.enter (stage.val.blockFrame ref arguments)) trivial
      (stage.property.all_blockFrame ref allKnown)
    obtain ⟨_, _, extended⟩ := reached.later
    exact ⟨after, reached, (concurs _ _).fitAll fun node found =>
      (stage.property.within.bodies ref node found).mono extended.extended⟩

theorem partners (budget : Nat) : diagonal.Partners (.ofBudget budget) (.ofBudget budget) :=
  (interpreters_of_unmixed laws (fun fits => Code.noConfusion fits.1)
    (fun fits => Code.noConfusion fits.1) budget).toPartners

/-- A host that is served once: its images are those that sequences of actions lead to.  Methods are
taken out of dictionaries only if the host may ask for it. -/
def hosting (start : Image) (removing : Prop) : Hosting where
  Link image other := other = image ∧ ∃ actions, start.Reaches actions image ∧
    ∀ action ∈ actions, Action.removes action = true → removing
  Ready _ := True
  Similar routine other := other = routine
  removes := removing

variable {start : Image} {removing : Prop}

theorem act {image other : Image} (link : (hosting start removing).Link image other)
    (action : Action) (allowed : action.Allowed image)
    (keeps : action.removes = true → removing) :
    (hosting start removing).Link (action.perform image) (action.perform other) := by
  obtain ⟨rfl, actions, history, kept⟩ := link
  refine ⟨rfl, actions ++ [action], history.act action allowed, fun earlier member => ?_⟩
  rcases List.mem_append.mp member with member | member
  · exact kept earlier member
  · cases List.mem_singleton.mp member
    exact keeps

theorem Internal.keeps {action : Action} (internal : action.Internal) :
    action.removes = true → removing := by
  intro removes
  cases action with
  | remove holder selector => exact internal.elim
  | _ => cases removes

/-- Preparing a method and installing it are actions of their own. -/
theorem prepared (formed : start.WellFormed) {image other : Image}
    (link : (hosting start removing).Link image other) {holder : ClassRef}
    (definition : Source.MethodDefinition) (known : image.classes.Has holder) :
    (hosting start removing).Preparations holder definition.selector
      (Image.prepareMethod holder definition image)
      (Image.prepareMethod holder definition other) := by
  have formed := link.2.choose_spec.1.wellFormed formed
  have same : other = image := link.1
  rw [same] at link ⊢
  have grown := definition.prepare_grows (image.surroundings holder definition.selector) image.draft
  unfold Image.prepareMethod
  cases success : definition.prepare (image.surroundings holder definition.selector)
      image.draft with
  | error flaw draft =>
      rw [success] at grown
      exact .error (act link (.allocate draft) grown nofun)
  | ok routine draft =>
      rw [success] at grown
      have allocated := act link (.allocate draft) grown nofun
      refine .ok rfl allocated known ?_
      refine act allocated (.install holder definition.selector (.defined routine)) ⟨known, ?_⟩
        nofun
      obtain ⟨temporaries, body, codes, -, -, preparedAll, rfl⟩ :=
        Source.MethodDefinition.prepared_of_prepare success
      exact .of_furnishes formed grown (fun origin found => formed.within.superclasses holder origin
        found) (Source.Expression.prepareAll_furnishes body preparedAll)

theorem hosting_laws (formed : start.WellFormed) :
    (hosting start removing).Laws diagonal where
  alike := fun ⟨same, _⟩ => same ▸ .refl _
  formed := fun ⟨_, _, history, _⟩ => history.wellFormed formed
  staged := fun ⟨same, _, history, _⟩ _ => ⟨⟨_, history.wellFormed formed⟩, rfl, same.symm⟩
  linked := fun ⟨_, actions, history, kept⟩ ⟨more, internal, reached⟩ =>
    ⟨rfl, actions ++ more, history.trans reached, fun action member =>
      (List.mem_append.mp member).elim (kept action)
        fun member => Internal.keeps (internal action member)⟩
  noted := fun {image other} link describe => by
    have same : other = image := link.1
    rw [same] at link ⊢
    rw [Image.note_eq_perform]
    exact act link (.noteDown _) trivial nofun
  bound := fun link name value known => act link (.bind name value) known nofun
  registered := fun link name superclass fields classFields known =>
    act link (.register name superclass fields classFields) known nofun
  installed := fun link holder selector behavior known bodiless => by
    refine act link (.install holder selector behavior) ⟨known, ?_⟩ nofun
    cases behavior with
    | defined routine => exact bodiless.elim
    | primitive operation => exact Image.fresh_nil _
    | missing title => exact Image.fresh_nil _
  prepared := fun link holder definition known => prepared formed link definition known
  detached := fun {image other} link block _ => by
    have same : other = image := link.1
    rw [same] at link ⊢
    exact act link (.makeBlock { image.blockAt block with captured := none })
      ((link.2.choose_spec.1.wellFormed formed).within.bodies block) nofun
  removed := fun removing _ _ link holder selector =>
    act link (.remove holder selector) trivial fun _ => removing

end Diagonal

end Correspondence

/-- Every session is a sequence of allowed actions.  Methods are taken out of dictionaries only if
one of the requests asks for it. -/
theorem Request.serveAll_reaches {start image : Image} (formed : start.WellFormed)
    {removing : Prop} (budget : Nat) (requests : List Request)
    (admissible : Request.Throughout (.ofBudget budget) (fun image request =>
      request.Admissible image ∧ (request.removes = true → removing)) requests image)
    {actions : List Action} (history : start.Reaches actions image)
    (kept : ∀ action ∈ actions, Action.removes action = true → removing) :
    ∃ actions, start.Reaches actions (Request.serveAll (.ofBudget budget) requests image).2 ∧
      ∀ action ∈ actions, Action.removes action = true → removing := by
  induction requests generalizing image actions with
  | nil => exact ⟨actions, history, kept⟩
  | cons request rest inductionHypothesis =>
      obtain ⟨⟨known, allowed⟩, later⟩ := admissible
      have served := Correspondence.Hosting.serve_served
        (@Correspondence.Diagonal.hosting_laws start removing formed) Correspondence.Diagonal.laws
        (Correspondence.Diagonal.partners budget) ⟨rfl, actions, history, kept⟩ trivial known
        allowed
      obtain ⟨-, more, further, keptToo⟩ := served.link id
      exact inductionHypothesis later further keptToo

end MessageMachine
