import MessageMachine.Proofs.Development
import MessageMachine.Proofs.Discipline.Sessions

/-!
# Live frames are the running ones

A frame is marked as live when it is made, and the mark is taken away when the activation is left,
whichever way it is left.  Between the two the frames of other activations come and go.  So an
evaluation leaves the marks as they were: that is a discipline, in which an image is later than
another one if the same frames are live.

It follows that at every moment the live frames are those of the activations on the stack.
-/

namespace MessageMachine

namespace Image

/-- Whether the frames that there were are live exactly if they were, and no other frame is. -/
structure KeepsLiveness (before after : Image) : Prop where
  count : before.heap.frames.size ≤ after.heap.frames.size
  old : ∀ ref, before.heap.frames.Has ref → (after.frameAt ref).live = (before.frameAt ref).live
  new : ∀ ref, ¬ before.heap.frames.Has ref → (after.frameAt ref).live = false

/-- Whether no frame is live. -/
def Quiet (image : Image) : Prop :=
  ∀ ref, (image.frameAt ref).live = false

theorem live_of_not_has {image : Image} {ref : FrameRef} (absent : ¬ image.heap.frames.Has ref) :
    (image.frameAt ref).live = false := by
  rw [frameAt, Arena.get_of_not_has absent]
  rfl

/-- A frame that is entered is live from then on. -/
theorem live_addFrame {image : Image} {frame : Frame} (entered : frame.live = true)
    {ref : FrameRef} :
    ((image.addFrame frame).frameAt ref).live = true ↔
      ref = image.heap.frames.next ∨ (image.frameAt ref).live = true := by
  simp only [addFrame, frameAt, Arena.get_push]
  split
  · next same => simp [same, entered]
  · next apart => simp [apart]

namespace KeepsLiveness

variable {before between after : Image}

/-- A frame that there is not is not live either. -/
theorem live (kept : before.KeepsLiveness after) (ref : FrameRef) :
    (after.frameAt ref).live = (before.frameAt ref).live := by
  by_cases known : before.heap.frames.Has ref
  · exact kept.old ref known
  · rw [kept.new ref known, live_of_not_has known]

theorem of_live (count : before.heap.frames.size ≤ after.heap.frames.size)
    (live : ∀ ref, (after.frameAt ref).live = (before.frameAt ref).live) :
    before.KeepsLiveness after where
  count := count
  old := fun ref _ => live ref
  new := fun ref absent => (live ref).trans (live_of_not_has absent)

theorem refl (image : Image) : image.KeepsLiveness image :=
  .of_live (Nat.le_refl _) fun _ => rfl

theorem trans (first : before.KeepsLiveness between) (second : between.KeepsLiveness after) :
    before.KeepsLiveness after :=
  .of_live (Nat.le_trans first.count second.count) fun ref =>
    (second.live ref).trans (first.live ref)

theorem of_frames (same : after.heap.frames = before.heap.frames) :
    before.KeepsLiveness after :=
  .of_live (Nat.le_of_eq (congrArg Arena.size same).symm) fun ref => by
    rw [frameAt, same, ← frameAt]

theorem of_simple {action : Action} (simple : action.IsSimple) (image : Image) :
    image.KeepsLiveness (action.perform image) :=
  .of_frames (simple.perform image).2.2

theorem setSlot (image : Image) (frame : FrameRef) (kind : SlotKind) (index : Nat)
    (value : Value) :
    image.KeepsLiveness ((Action.setSlot frame kind index value).perform image) := by
  refine .of_live (Nat.le_of_eq (Arena.size_modify _ _ _).symm) fun ref => ?_
  simp only [Action.perform, changeFrame, frameAt, Arena.get_modify]
  split
  · cases kind <;> rfl
  · rfl

/-- Where a frame was entered and is left, the frames are live that were before. -/
theorem leave {frame : Frame} (kept : (before.addFrame frame).KeepsLiveness after) :
    before.KeepsLiveness ((Action.leave before.heap.frames.next).perform after) := by
  have count : before.heap.frames.size + 1 ≤ after.heap.frames.size := by
    have more := kept.count
    simpa only [addFrame, Arena.size_push] using more
  refine .of_live ?_ fun ref => ?_
  · simp only [Action.perform, changeFrame, Arena.size_modify]
    omega
  · simp only [Action.perform, changeFrame, frameAt, Arena.get_modify]
    split
    · next same =>
        rw [same.1, Arena.get_of_not_has (Arena.not_has_next _)]
        rfl
    · next apart =>
        have here : (after.heap.frames.get ref).live = ((before.addFrame frame).frameAt ref).live :=
          kept.live ref
        rw [here]
        by_cases same : ref = before.heap.frames.next
        · subst same
          exact absurd ⟨rfl, count⟩ apart
        · simp only [addFrame, frameAt, Arena.get_push, if_neg same]

theorem quiet (kept : before.KeepsLiveness after) (quiet : before.Quiet) : after.Quiet :=
  fun ref => (kept.live ref).trans (quiet ref)

end KeepsLiveness

end Image

namespace Activation

variable {activation : Activation} {image : Image} {frame : Frame} {body : List Code}

theorem live_of_opening (opened : activation.opening? image = some (frame, body)) :
    frame.live = true := by
  cases opens_of_opening opened with
  | method _ _ => rfl
  | block => rfl

end Activation

namespace Running

variable {budget : Nat} {activation : Activation} {image : Image} {below : List Running}

theorem filterMap_frame?_of_opening {frame : Frame} {body : List Code}
    (opened : activation.opening? image = some (frame, body)) :
    (⟨budget + 1, activation, image⟩ :: below).filterMap frame? =
      image.heap.frames.next :: below.filterMap frame? := by
  simp only [List.filterMap_cons, frame?, opened, Option.map_some]

theorem filterMap_frame?_of_not_opening (closed : activation.opening? image = none) :
    (⟨budget + 1, activation, image⟩ :: below).filterMap frame? = below.filterMap frame? := by
  simp only [List.filterMap_cons, frame?, closed, Option.map_none]

end Running

namespace Discipline

/-- The discipline of leaving the frames live that were. -/
def liveness : Discipline where
  Holds := fun _ => True
  Later := Image.KeepsLiveness
  Good := fun _ _ => True
  Fine := fun _ _ => True
  Fits := fun _ _ _ => True
  Runs := fun _ _ => True
  Begun := fun _ => True
  Here := fun _ _ _ => True
  Given := fun _ _ _ _ => True

theorem liveness_act {image : Image} {action : Action} (simple : action.IsSimple) :
    liveness.Steps image (action.perform image) :=
  ⟨trivial, .of_simple simple image⟩

theorem liveness_laws : liveness.Laws where
  toOrder := ⟨Image.KeepsLiveness.refl, Image.KeepsLiveness.trans⟩
  toValues := .of_any liveness fun _ _ => trivial
  toEscapes := .of_any _ (fun _ _ => trivial) fun _ _ => trivial
  toPrograms := {
    carry := fun _ _ => trivial
    parts := fun _ _ _ => trivial
    literal := fun _ _ _ => trivial
    read := fun _ _ _ => trivial
    write := fun {_ _ slot _ value home} _ _ _ _ =>
      ⟨trivial, .setSlot _ home slot.kind slot.index value⟩
    unwritten := fun _ _ _ => trivial
    readField := fun {image frame site index} _ _ => by
      have simple : (Action.readFieldAt site (image.frameAt frame).receiver index).IsSimple :=
        trivial
      exact ⟨liveness_act simple, fun _ => trivial⟩
    writeField := fun {image frame site index _ value} _ _ _ _ => by
      have simple :
          (Action.writeFieldAt site (image.frameAt frame).receiver index value).IsSimple := trivial
      exact ⟨liveness_act simple, fun _ => trivial⟩
    block := fun _ _ _ => ⟨trivial, .of_frames rfl⟩
    answer := fun _ _ _ _ => trivial
    resolve := fun {image _ _ site selector receiver} _ _ _ _ _ => by
      have simple : (Action.resolve site selector receiver).IsSimple := trivial
      exact ⟨liveness_act simple, fun _ _ _ _ => trivial⟩
    resolveSuper := fun {_ image _ site origin selector _} _ _ _ _ _ => by
      have simple : (Action.resolveSuper site origin selector).IsSimple := trivial
      exact ⟨liveness_act simple, fun _ _ _ _ => trivial⟩ }
  toActivations := {
    found := fun _ _ _ _ _ _ => trivial
    called := fun _ _ _ _ _ => trivial
    arguments := fun _ _ _ => trivial
    accompanied := fun _ _ _ => trivial
    calls := fun _ _ _ => trivial
    puts := fun _ _ _ _ => ⟨trivial, .of_frames rfl⟩
    assigns := fun {_ _ _ receiver place value} _ _ _ _ _ => by
      have simple : (Action.writeField receiver place value).IsSimple := trivial
      exact liveness_act simple
    nested := fun _ _ => trivial
    here := fun _ _ => trivial
    given := fun _ _ _ => trivial
    enter := fun _ _ _ _ => ⟨trivial, fun _ _ => trivial⟩
    leave := fun _ _ _ later _ =>
      ⟨⟨trivial, later.leave⟩, fun _ _ => trivial, fun _ _ _ => trivial⟩ }
  act := fun {image action} _ may => by
    refine liveness_act ?_
    cases action <;> first | exact may.elim | trivial

/-- Where nothing is asked of them, all evaluations keep to a discipline. -/
theorem liveness_trusts {Answer : Type} (budget : Nat) (image : Image)
    (body : Machine → Eval Answer) : liveness.Trusts (.ofBudget budget) image body :=
  fun _ _ _ _ _ _ => faithful liveness_laws budget trivial trivial trivial

theorem liveness_ready (machine : Machine) (frame : FrameRef) (codes : List Code)
    (image : Image) : liveness.Ready machine frame codes image where
  holds := trivial
  fits := fun _ _ => trivial
  here := fun _ _ _ => trivial
  given := fun _ _ _ _ _ _ => trivial

end Discipline

open Discipline

section Evaluations

variable (budget : Nat) (image : Image)

theorem keepsLiveness_evaluate (frame : FrameRef) (code : Code) :
    image.KeepsLiveness (Eval.left (code.evaluate (.ofBudget budget) frame image)) :=
  (code_keeps liveness_laws (liveness_ready _ frame [code] image)
    (liveness_trusts budget image _)).yields.left_later

theorem keepsLiveness_evaluateBody (frame : FrameRef) (body : List Code) :
    image.KeepsLiveness (Eval.left (Code.evaluateBody (.ofBudget budget) frame body image)) :=
  (body_keeps liveness_laws (liveness_ready _ frame body image)
    (liveness_trusts budget image _)).yields.left_later

theorem keepsLiveness_run (activation : Activation) :
    image.KeepsLiveness (Eval.left (activation.run budget image)) :=
  (faithful liveness_laws budget trivial trivial trivial).left_later

end Evaluations

/-- What is evaluated for a request leaves the frames live that were. -/
theorem Request.liveness_evaluates {machine : Machine} {request : Request} {image : Image}
    {body : Machine → Eval Value} (evaluation : request.evaluation? = some body) :
    liveness.Evaluates machine image body :=
  request_keeps_of_any liveness_laws (fun _ _ => trivial) (fun _ _ => trivial) trivial evaluation

theorem Request.keepsLiveness_serve (budget : Nat) (request : Request) (image : Image) :
    image.KeepsLiveness (request.serve (.ofBudget budget) image).2 := by
  cases evaluation : request.evaluation? with
  | none => exact .of_frames (serve_frames evaluation image)
  | some body =>
      rw [serve_of_evaluation evaluation]
      exact (liveness_evaluates evaluation (liveness_trusts budget image body)).yields.left_later

namespace Session

variable {session : Session}

theorem liveness_hosts (session : Session) : liveness.Hosts session where
  begun := fun _ => trivial
  evaluates := fun _ evaluation => Request.liveness_evaluates evaluation

/-- Requests leave the frames live that were. -/
theorem keepsLiveness_of_serves {request : Request} {image : Image}
    (serves : session.Serves request image) : session.start.KeepsLiveness image :=
  (serves_induction (.refl session.start) fun {request image} _ kept =>
    kept.trans (Request.keepsLiveness_serve session.budget request image)).1 serves

/-- Between requests no frame is live. -/
theorem quiet_of_serves (start : session.start.Quiet) {request : Request} {image : Image}
    (serves : session.Serves request image) : image.Quiet :=
  (keepsLiveness_of_serves serves).quiet start

/-- When an activation is begun, the live frames are those of the activations below it, and those
that are live to begin with. -/
theorem live_iff_below_or_start {running : Running} {below : List Running}
    (moment : session.Underway (running :: below)) (ref : FrameRef) :
    (running.image.frameAt ref).live = true ↔
      ref ∈ below.filterMap Running.frame? ∨ (session.start.frameAt ref).live = true := by
  have hosts := liveness_hosts session
  generalize same : running :: below = stack at moment
  induction moment generalizing running below with
  | first serves evaluation asks =>
      cases same
      have later := ((hosts.obeys liveness_laws serves evaluation).warrant asks).later
      rw [later.live ref, (keepsLiveness_of_serves serves).live ref]
      simp
  | @nested budget activation asked begun image below moment asks inductionHypothesis =>
      cases same
      have before : (begun.frameAt ref).live = true ↔
          ref ∈ below.filterMap Running.frame? ∨ (session.start.frameAt ref).live = true :=
        inductionHypothesis rfl
      cases asks with
      | code opened asks =>
          have later := ((hosts.body_obeys liveness_laws moment opened).warrant asks).later
          rw [later.live ref, Image.live_addFrame (Activation.live_of_opening opened), before,
            Running.filterMap_frame?_of_opening opened, List.mem_cons, or_assoc]
      | operation method behavior asks =>
          subst method
          have later := ((hosts.operation_obeys liveness_laws moment behavior).warrant asks).later
          rw [later.live ref, before,
            Running.filterMap_frame?_of_not_opening (Activation.opening?_of_primitive behavior)]

/-- When an activation is begun, the live frames are those of the activations below it. -/
theorem live_iff_below (start : session.start.Quiet) {running : Running} {below : List Running}
    (moment : session.Underway (running :: below)) (ref : FrameRef) :
    (running.image.frameAt ref).live = true ↔ ref ∈ below.filterMap Running.frame? := by
  rw [live_iff_below_or_start moment, start ref]
  simp

/-- When an expression is evaluated, the live frames are those of all activations on the stack. -/
theorem live_iff_stack (start : session.start.Quiet) {running : Running} {below : List Running}
    (moment : session.Underway (running :: below)) {frame : FrameRef} {code : Code} {image : Image}
    (evaluates : running.Evaluates frame code image) (ref : FrameRef) :
    (image.frameAt ref).live = true ↔ ref ∈ (running :: below).filterMap Running.frame? := by
  have before := live_iff_below start moment ref
  cases evaluates with
  | intro opened visits =>
      have later := ((liveness_hosts session).visit liveness_laws moment opened visits).later
      rw [later.live ref, Image.live_addFrame (Activation.live_of_opening opened), before,
        Running.filterMap_frame?_of_opening opened, List.mem_cons]

end Session

theorem Session.quiet_fresh (platform : Platform) (settings : Settings) (listening : Bool)
    (budget : Nat) (requests : List Request) :
    (fresh platform settings listening budget requests).start.Quiet := by
  rw [start_fresh]
  intro ref
  exact Image.live_of_not_has
    (Arena.not_has_of_size_eq_zero (Image.codeless_initial platform settings listening).frames ref)

end MessageMachine
