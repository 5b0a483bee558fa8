import MessageMachine.Proofs.Liveness
import MessageMachine.Proofs.Succession

/-!
# The order of moments

The number of frames is a clock of every session.  Since an activation that has a frame makes the
number of frames grow, the frame tells which activation it is.
-/

namespace MessageMachine

open Discipline

namespace Running

/-- The number of frames when an activation is begun. -/
def opens (running : Running) : Nat :=
  running.image.heap.frames.size

/-- The number of frames when an activation is over. -/
def closes (running : Running) : Nat :=
  (Eval.left running.result).heap.frames.size

/-- Whether one of two activations is over when the other one is begun. -/
def Apart (running other : Running) : Prop :=
  running.closes ≤ other.opens ∨ other.closes ≤ running.opens

/-- Whether an activation is run while another one is. -/
structure Inside (inner outer : Running) : Prop where
  opens : outer.opens ≤ inner.opens
  closes : inner.closes ≤ outer.closes

/-- Whether an activation is over when another one is begun, and did not escape. -/
structure Precedes (running other : Running) : Prop where
  subsides : Eval.Subsides running.result
  closes : running.closes ≤ other.opens

/-- Whether two activations are the same, or one of them precedes the other. -/
def Sorted (running other : Running) : Prop :=
  running = other ∨ running.Precedes other ∨ other.Precedes running

theorem sorted_of_past {running other : Running}
    (ordered : running = other ∨
      running.Past (fun image after => image.heap.frames.size ≤ after.heap.frames.size)
        other.image ∨
      other.Past (fun image after => image.heap.frames.size ≤ after.heap.frames.size)
        running.image) :
    running.Sorted other := by
  rcases ordered with same | past | past
  · exact Or.inl same
  · exact Or.inr (Or.inl ⟨past.subsides, past.finished⟩)
  · exact Or.inr (Or.inr ⟨past.subsides, past.finished⟩)

end Running

namespace Session

variable {session : Session} {running other outer : Running} {below belowToo : List Running}

theorem size_leave (image : Image) (ref : FrameRef) :
    ((Action.leave ref).perform image).heap.frames.size = image.heap.frames.size :=
  Arena.size_modify _ _ _

/-- The number of frames never goes down. -/
theorem frames_clock (session : Session) :
    liveness.Clock session fun image after => image.heap.frames.size ≤ after.heap.frames.size where
  refl := fun _ => Nat.le_refl _
  trans := Nat.le_trans
  later := fun later => later.count
  enter := fun {_ image frame _} _ _ _ => by
    have more : (image.addFrame frame).heap.frames.size = image.heap.frames.size + 1 :=
      Arena.size_push _ _
    exact Nat.le.intro more.symm
  leave := fun image ref => Nat.le_of_eq (size_leave image ref).symm
  serve := fun {request image} _ => (Request.keepsLiveness_serve session.budget request image).count

/-- An activation that was asked for from a frame is begun after the frame was made. -/
theorem opens_of_nested (moment : session.Underway (other :: running :: below))
    {ref : FrameRef} (own : running.frame? = some ref) : running.opens < other.opens := by
  have hosts := liveness_hosts session
  cases moment with
  | @nested budget activation asked begun image _ moment asks =>
      cases asks with
      | @code frame body _ _ opened asks =>
          have warrants := (hosts.body_obeys liveness_laws moment opened).warrant asks
          have more : (begun.addFrame frame).heap.frames.size = begun.heap.frames.size + 1 :=
            Arena.size_push _ _
          have opens := warrants.later.count
          change begun.heap.frames.size < image.heap.frames.size
          omega
      | operation method behavior asks =>
          subst method
          simp only [Running.frame?, Activation.opening?_of_primitive behavior] at own
          cases own

/-- The activations that one activation asks for are sorted. -/
theorem sorted_of_nested (moment : session.Underway (running :: outer :: below))
    (momentToo : session.Underway (other :: outer :: below)) : running.Sorted other :=
  Running.sorted_of_past ((frames_clock session).ordered_of_nested liveness_laws
    (liveness_hosts session) moment momentToo)

/-- The activations on a stack are run one inside the other. -/
theorem inside_of_suffix (moment : session.Underway (other :: belowToo))
    (suffix : running :: below <:+ other :: belowToo) : other.Inside running := by
  have during := (frames_clock session).during_of_suffix liveness_laws (liveness_hosts session)
    moment suffix
  exact ⟨during.begun, during.finished⟩

/-- Whether one of two stacks is on top of the other, or their topmost activations are apart. -/
def Comparable (stack : List Running) (running : Running) (stackToo : List Running)
    (other : Running) : Prop :=
  stack <:+ stackToo ∨ stackToo <:+ stack ∨ running.Apart other

theorem comparable (moment : session.Underway (running :: below))
    (momentToo : session.Underway (other :: belowToo)) :
    Comparable (running :: below) running (other :: belowToo) other :=
  (frames_clock session).comparable liveness_laws (liveness_hosts session) moment momentToo

/-- An activation with a frame adds to the frames. -/
theorem opens_lt_closes {ref : FrameRef} (own : running.frame? = some ref) :
    running.opens = ref.index ∧ running.opens < running.closes := by
  obtain ⟨budget, activation, image⟩ := running
  cases budget with
  | zero => cases own
  | succ budget =>
      obtain ⟨⟨frame, body⟩, opened, same⟩ := Option.map_eq_some_iff.mp own
      subst same
      refine ⟨rfl, ?_⟩
      have more : (image.addFrame frame).heap.frames.size = image.heap.frames.size + 1 :=
        Arena.size_push _ _
      have grown := (keepsLiveness_evaluateBody budget (image.addFrame frame)
        image.heap.frames.next body).count
      change image.heap.frames.size <
        (Eval.left ((Machine.ofBudget budget).step activation image)).heap.frames.size
      rw [step_eq_conclude opened, Activation.left_conclude, size_leave]
      omega

/-- On a stack, an activation with a frame of its own is below activations with later frames. -/
theorem eq_of_suffix (momentToo : session.Underway (other :: belowToo)) {ref : FrameRef}
    (suffix : running :: below <:+ other :: belowToo) (own : running.frame? = some ref)
    (ownToo : other.frame? = some ref) : running :: below = other :: belowToo := by
  rcases eq_or_next_of_suffix suffix with same | ⟨next, higher⟩
  · exact same
  · have later := opens_of_nested (underway_of_suffix momentToo higher) own
    have inside := (inside_of_suffix momentToo higher).opens
    have first := (opens_lt_closes own).1
    have second := (opens_lt_closes ownToo).1
    omega

/-- A frame belongs to one activation. -/
theorem eq_of_frame? (moment : session.Underway (running :: below))
    (momentToo : session.Underway (other :: belowToo)) {ref : FrameRef}
    (own : running.frame? = some ref) (ownToo : other.frame? = some ref) :
    running :: below = other :: belowToo := by
  have first := opens_lt_closes own
  have second := opens_lt_closes ownToo
  rcases comparable moment momentToo with suffix | suffix | before | after
  · exact eq_of_suffix momentToo suffix own ownToo
  · exact (eq_of_suffix moment suffix ownToo own).symm
  · omega
  · omega

end Session

end MessageMachine
