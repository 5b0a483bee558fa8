import MessageMachine.Proofs.Mismatch
import MessageMachine.Proofs.Return

/-!
# How failures leave activations

A failure that comes out of an activation either arose there or came out of an activation that was
asked for.  It leaves the frame, if there is one, is noted down with the method, if one was run, and
goes on to whatever asked for the activation.  Nothing takes a failure up.  An evaluation that asks
for several activations is over once one of them has failed, so that the activations that fail while
a request is served are one inside the other, from the first one up to the one in which the failure
arose, and all others are over before that.
-/

namespace MessageMachine

open Discipline

namespace Exception

/-- A failure that has left methods. -/
def past (exception : Exception) (methods : List MethodRef) : Exception :=
  { exception with backtrace := exception.backtrace ++ methods.toArray }

@[simp] theorem past_nil (exception : Exception) : exception.past [] = exception := by
  simp only [past, Array.append_empty]

theorem past_append (exception : Exception) (first second : List MethodRef) :
    exception.past (first ++ second) = (exception.past first).past second := by
  simp only [past, Array.append_assoc, List.append_toArray]

end Exception

namespace Running

/-- The method that an activation is noted down with: a defined one, if it is run with as many
arguments as it has parameters. -/
def method? : Running → Option MethodRef
  | ⟨_ + 1, .method ref (_ :: operands), image⟩ =>
      match (image.methodAt ref).behavior with
      | .defined routine => if operands.length = routine.parameters then some ref else none
      | _ => none
  | _ => none

theorem past_filterMap (exception : Exception) (above : List Running) (running : Running) :
    (exception.past (above.filterMap method?)).past running.method?.toList =
      exception.past ((above ++ [running]).filterMap method?) := by
  rw [← Exception.past_append, List.filterMap_append]
  cases found : running.method? <;> simp [found]

/-- What an activation does of its own comes to: its body in its frame, or the whole of it if it
gets no frame. -/
def work : Running → EStateM.Result Escape Image Value
  | ⟨0, _, image⟩ => .error .exhausted image
  | ⟨budget + 1, activation, image⟩ =>
      match activation.opening? image with
      | some (frame, body) =>
          Code.evaluateBody (.ofBudget budget) image.heap.frames.next body (image.addFrame frame)
      | none => (Machine.ofBudget budget).step activation image

/-- Whether an activation ends in a failure. -/
def Fails (running : Running) : Prop :=
  ∃ exception after, running.result = .error (.failed exception) after

section Leaving

variable {budget : Nat} {activation : Activation} {image after : Image} {running other : Running}
  {exception : Exception}

theorem work_of_opening {frame : Frame} {body : List Code}
    (opened : activation.opening? image = some (frame, body)) :
    work ⟨budget + 1, activation, image⟩ =
      Code.evaluateBody (.ofBudget budget) image.heap.frames.next body (image.addFrame frame) := by
  simp only [work, opened]

/-- Activations without a frame are all work. -/
theorem work_of_not_opening (closed : activation.opening? image = none) :
    work ⟨budget + 1, activation, image⟩ = result ⟨budget + 1, activation, image⟩ := by
  simp only [work, closed]
  rfl

theorem work_of_operation {ref : MethodRef} {arguments : List Value} {primitive : Primitive}
    (behavior : (image.methodAt ref).behavior = .primitive primitive) :
    work ⟨budget + 1, .method ref arguments, image⟩ =
      (Machine.ofBudget budget).runPrimitive primitive (image.methodAt ref).selector arguments
        image := by
  rw [work_of_not_opening (Activation.opening?_of_primitive behavior)]
  change (Machine.ofBudget budget).invoke ref arguments image = _
  rw [Machine.invoke, Eval.get_bind]
  simp only [behavior]

theorem method?_of_not_opening (closed : activation.opening? image = none) :
    method? ⟨budget + 1, activation, image⟩ = none := by
  cases Activation.frameless_of_not_opening closed with
  | alone => rfl
  | @missing _ arguments _ behavior | @operation _ arguments _ behavior =>
      cases arguments with
      | nil => rfl
      | cons receiver operands => simp only [method?, behavior]
  | miscounted behavior apart => simp only [method?, behavior, if_neg apart]

theorem method?_of_method {ref : MethodRef} {arguments : List Value} {frame : Frame}
    {body : List Code}
    (opened : (Activation.method ref arguments).opening? image = some (frame, body)) :
    method? ⟨budget + 1, .method ref arguments, image⟩ = some ref := by
  cases Activation.opens_of_opening opened with
  | method behavior count => simp only [method?, behavior, if_pos count]

/-- What the end of an activation makes of a failure of its body, and of nothing else. -/
theorem conclude_eq_failed_iff {frame : Frame} {body : List Code}
    (opened : activation.opening? image = some (frame, body))
    {ended : EStateM.Result Escape Image Value} {home : FrameRef} :
    activation.conclude home ended = .error (.failed exception) after ↔
      ∃ inner left, ended = .error (.failed inner) left ∧
        exception = inner.past (method? ⟨budget + 1, activation, image⟩).toList ∧
        after = (Action.leave home).perform left := by
  cases ended with
  | ok value left =>
      refine ⟨fun failed => ?_, by rintro ⟨_, _, ⟨⟩, _⟩⟩
      unfold Activation.conclude at failed
      dsimp only at failed
      split at failed <;> cases failed
  | error escape left =>
      cases escape with
      | failed inner =>
          have becomes : activation.conclude home (.error (.failed inner) left) =
              .error (.failed (inner.past (method? ⟨budget + 1, activation, image⟩).toList))
                ((Action.leave home).perform left) := by
            cases activation with
            | block ref arguments =>
                rw [show method? ⟨budget + 1, .block ref arguments, image⟩ = none from rfl,
                  Option.toList_none, Exception.past_nil]
                rfl
            | method ref arguments =>
                rw [method?_of_method opened]
                rfl
          rw [becomes]
          constructor
          · rintro ⟨⟩
            exact ⟨inner, left, rfl, rfl, rfl⟩
          · rintro ⟨_, _, ⟨⟩, rfl, rfl⟩
            rfl
      | unwinding value target =>
          refine ⟨fun failed => ?_, by rintro ⟨_, _, ⟨⟩, _⟩⟩
          cases activation with
          | block ref arguments => cases failed
          | method ref arguments =>
              simp only [Activation.conclude] at failed
              split at failed <;> cases failed
      | exhausted | stopped =>
          refine ⟨fun failed => ?_, by rintro ⟨_, _, ⟨⟩, _⟩⟩
          cases activation <;> cases failed

/-- What an activation makes of a failure: it leaves its frame and adds its method. -/
theorem result_eq_failed_iff :
    running.result = .error (.failed exception) after ↔
      ∃ inner left, running.work = .error (.failed inner) left ∧
        exception = inner.past running.method?.toList ∧
        after = left.leaveAll running.frame?.toList := by
  obtain ⟨budget, activation, image⟩ := running
  cases budget with
  | zero =>
      constructor
      · intro failed
        cases failed
      · rintro ⟨inner, left, failed, -⟩
        cases failed
  | succ budget =>
      cases opened : activation.opening? image with
      | none =>
          simp only [work_of_not_opening opened, method?_of_not_opening opened, frame?, opened,
            Option.map_none, Option.toList_none, Exception.past_nil]
          constructor
          · exact fun failed => ⟨exception, after, failed, rfl, rfl⟩
          · rintro ⟨inner, left, failed, rfl, rfl⟩
            exact failed
      | some opening =>
          obtain ⟨frame, body⟩ := opening
          have concluded : result ⟨budget + 1, activation, image⟩ =
              activation.conclude image.heap.frames.next (work ⟨budget + 1, activation, image⟩) :=
            (step_eq_conclude opened _).trans (congrArg _ (work_of_opening opened).symm)
          have own : frame? ⟨budget + 1, activation, image⟩ = some image.heap.frames.next := by
            simp only [frame?, opened, Option.map_some]
          rw [concluded, own]
          exact conclude_eq_failed_iff opened

/-- An escape from the work of an activation is one from its code. -/
theorem evaluateAll_of_work {frame : Frame} {body : List Code} {escape : Escape}
    (opened : activation.opening? image = some (frame, body))
    (worked : work ⟨budget + 1, activation, image⟩ = .error escape after) :
    Code.evaluateAll (.ofBudget budget) image.heap.frames.next body (image.addFrame frame) =
      .error escape after := by
  rw [work_of_opening opened] at worked
  simp only [Code.evaluateBody, Bind.bind, EStateM.bind] at worked
  split at worked
  · cases worked
  · next escaped =>
      cases worked
      exact escaped

/-- When the work of an activation is done, its frame is live, and the frames that were. -/
theorem live_of_work (running : Running) (ref : FrameRef) :
    ((Eval.left running.work).frameAt ref).live = true ↔
      running.frame? = some ref ∨ (running.image.frameAt ref).live = true := by
  obtain ⟨budget, activation, begun⟩ := running
  cases budget with
  | zero => simp [work, frame?]
  | succ budget =>
      cases opened : activation.opening? begun with
      | none =>
          rw [work_of_not_opening opened]
          have kept := keepsLiveness_run (budget + 1) begun activation
          rw [result, kept.live ref]
          simp [frame?, opened]
      | some opening =>
          obtain ⟨frame, body⟩ := opening
          rw [work_of_opening opened]
          have kept := keepsLiveness_evaluateBody budget (begun.addFrame frame)
            begun.heap.frames.next body
          rw [kept.live ref, Image.live_addFrame (Activation.live_of_opening opened),
            @eq_comm _ ref]
          simp only [frame?, opened, Option.map_some, Option.some.injEq]

/-- No failure of an activation is kept from passing. -/
theorem passes_of_failed (failed : running.result = .error (.failed exception) after) :
    (Escape.failed exception).Passes :=
  fun operation same =>
    Activation.run_settles running.budget running.activation running.image _ after failed
      ⟨operation, same⟩

theorem Fails.not_precedes (fails : running.Fails) : ¬ running.Precedes other := by
  obtain ⟨exception, after, failed⟩ := fails
  exact fun precedes => precedes.subsides _ after failed (passes_of_failed failed)

theorem Fails.eq_or_precedes (fails : running.Fails) (sorted : other.Sorted running) :
    other = running ∨ other.Precedes running :=
  sorted.imp_right fun ordered => ordered.resolve_right fails.not_precedes

end Leaving

end Running

namespace Session

/-- The session in which one request is served from an image. -/
def once (budget : Nat) (image : Image) (request : Request) : Session where
  budget
  start := image
  requests := [request]

theorem eq_of_serves_once {budget : Nat} {image served : Image} {request other : Request}
    (serves : (once budget image request).Serves other served) :
    other = request ∧ served = image := by
  cases serves with
  | head => exact ⟨rfl, rfl⟩
  | tail later => cases later

section Passing

variable {session : Session} {running other : Running} {below : List Running}
  {exception : Exception} {after : Image}

/-- A failure of an activation is one of the work of the activation that asked for it. -/
theorem work_of_nested (moment : session.Underway (other :: running :: below))
    (failed : other.result = .error (.failed exception) after) :
    running.work = .error (.failed exception) after := by
  have passes := Running.passes_of_failed failed
  cases moment with
  | nested moment asks =>
      cases asks with
      | code opened asks =>
          rw [Running.work_of_opening opened]
          exact asks.escape passes failed
      | operation method behavior asks =>
          subst method
          rw [Running.work_of_operation behavior]
          exact asks.escape passes failed

/-- Activations without a frame that are no operations fail at once. -/
theorem origin_of_frameless {budget : Nat} {activation : Activation} {image : Image}
    (frameless : activation.Frameless image)
    (other : ∀ ref arguments primitive, activation = .method ref arguments →
      (image.methodAt ref).behavior ≠ .primitive primitive)
    (failed : Running.result ⟨budget + 1, activation, image⟩ = .error (.failed exception) after) :
    exception.backtrace = #[] := by
  change (Machine.ofBudget budget).step activation image = _ at failed
  cases frameless with
  | operation behavior => exact absurd behavior (other _ _ _ rfl)
  | missing behavior | alone behavior =>
      simp only [Machine.step, Machine.invoke, Eval.get_bind, behavior] at failed
      cases failed
      rfl
  | miscounted behavior apart =>
      simp only [Machine.step, Machine.invoke, Eval.get_bind, behavior, if_neg apart] at failed
      cases failed
      rfl

/-- A failure of the work of an activation came out of an activation that was asked for, or has left
no method yet. -/
theorem origin (moment : session.Underway (running :: below))
    (failed : running.work = .error (.failed exception) after) :
    (∃ other, session.Underway (other :: running :: below) ∧ other.Fails) ∨
      exception.backtrace = #[] := by
  have hosts := liveness_hosts session
  obtain ⟨budget, activation, image⟩ := running
  cases budget with
  | zero => cases failed
  | succ budget =>
      cases opened : activation.opening? image with
      | some opening =>
          obtain ⟨frame, body⟩ := opening
          rw [Running.work_of_opening opened] at failed
          refine ((hosts.body_obeys liveness_laws moment opened).origin failed).imp_left ?_
          rintro ⟨asked, between, asks, failedThere⟩
          exact ⟨_, .nested moment (.code opened asks), exception, after, failedThere⟩
      | none =>
          by_cases operates : ∃ ref arguments primitive, activation = .method ref arguments ∧
              (image.methodAt ref).behavior = .primitive primitive
          · obtain ⟨ref, arguments, primitive, rfl, behavior⟩ := operates
            rw [Running.work_of_operation behavior] at failed
            refine ((hosts.operation_obeys liveness_laws moment behavior).origin failed).imp_left ?_
            rintro ⟨asked, between, asks, failedThere⟩
            exact ⟨_, .nested moment (.operation rfl behavior asks), exception, after, failedThere⟩
          · rw [Running.work_of_not_opening opened] at failed
            refine Or.inr (origin_of_frameless (Activation.frameless_of_not_opening opened) ?_
              failed)
            exact fun ref arguments primitive same behavior =>
              operates ⟨ref, arguments, primitive, same, behavior⟩

theorem fails_of_nested (moment : session.Underway (other :: running :: below))
    (fails : other.Fails) : running.Fails := by
  obtain ⟨exception, after, failed⟩ := fails
  exact ⟨_, _, Running.result_eq_failed_iff.mpr
    ⟨exception, after, work_of_nested moment failed, rfl, rfl⟩⟩

/-- Where one activation fails, those below it do. -/
theorem fails_of_mem (moment : session.Underway (running :: below)) (fails : running.Fails)
    {record : Running} (member : record ∈ running :: below) : record.Fails := by
  induction below generalizing running with
  | nil => rwa [List.mem_singleton.mp member]
  | cons next rest inductionHypothesis =>
      rcases List.mem_cons.mp member with rfl | member
      · exact fails
      · exact inductionHypothesis (underway_of_suffix moment (List.suffix_cons running _))
          (fails_of_nested moment fails) member

/-- A failure on its way down the stack. -/
theorem work_of_underway (moment : session.Underway (running :: below))
    (failed : running.work = .error (.failed exception) after)
    {above rest : List Running} {record : Running}
    (split : running :: below = above ++ record :: rest) :
    record.work = .error (.failed (exception.past (above.filterMap Running.method?)))
      (after.leaveAll (above.filterMap Running.frame?)) := by
  -- One more activation that the failure has left stands at the end of those above.
  induction above using List.reverseRecOn generalizing record rest with
  | nil =>
      cases split
      rw [List.filterMap_nil, Exception.past_nil]
      exact failed
  | append_singleton above passed inductionHypothesis =>
      rw [List.append_assoc] at split
      have before := inductionHypothesis split
      have stack : session.Underway (passed :: record :: rest) :=
        underway_of_suffix moment ⟨above, split.symm⟩
      have handed := Running.result_eq_failed_iff.mpr ⟨_, _, before, rfl, rfl⟩
      rw [work_of_nested stack handed, Image.leaveAll_filterMap, Running.past_filterMap]

/-- A failure that has left an activation of the stack. -/
theorem result_of_underway (moment : session.Underway (running :: below))
    (failed : running.work = .error (.failed exception) after)
    {above rest : List Running} {record : Running}
    (split : running :: below = above ++ record :: rest) :
    record.result =
      .error (.failed (exception.past ((above ++ [record]).filterMap Running.method?)))
        (after.leaveAll ((above ++ [record]).filterMap Running.frame?)) := by
  have handed := Running.result_eq_failed_iff.mpr
    ⟨_, _, work_of_underway moment failed split, rfl, rfl⟩
  rw [handed, Image.leaveAll_filterMap, Running.past_filterMap]

end Passing

/-- Where an activation is, seen from a stack: on it, on top of it, or in an activation that is over
when one of the stack is begun. -/
inductive Placed (running : Running) (below stack : List Running) : Prop
  | within : running :: below <:+ stack → Placed running below stack
  | above {next : Running} : next :: stack <:+ running :: below → Placed running below stack
  | before {passed record : Running} : passed ∈ running :: below → record ∈ stack →
      passed.Precedes record → Placed running below stack

section Once

variable {budget : Nat} {image : Image} {request : Request} {running other top next : Running}
  {below rest : List Running}

/-- The activations that are asked for by one activation, or for the request, are sorted. -/
theorem sorted_of_siblings (moment : (once budget image request).Underway (running :: below))
    (momentToo : (once budget image request).Underway (other :: below)) :
    running.Sorted other := by
  cases below with
  | cons outer rest => exact sorted_of_nested moment momentToo
  | nil =>
      cases moment with
      | first serves evaluation asks =>
          cases momentToo with
          | first servesToo evaluationToo asksToo =>
              obtain ⟨rfl, rfl⟩ := eq_of_serves_once serves
              obtain ⟨rfl, rfl⟩ := eq_of_serves_once servesToo
              cases evaluation.symm.trans evaluationToo
              have obeys := (liveness_hosts _).obeys liveness_laws serves evaluation
              exact Running.sorted_of_past
                (obeys.past_of_asks (fun later => later.count) asks asksToo)

/-- The activation that stands in the place of another one on a failing stack decides. -/
theorem placed_of_place (moment : (once budget image request).Underway (running :: below))
    (momentToo : (once budget image request).Underway (top :: rest)) (fails : top.Fails)
    (suffix : next :: below <:+ top :: rest) : Placed running below (top :: rest) := by
  have member : next ∈ top :: rest := suffix.subset List.mem_cons_self
  have sorted := sorted_of_siblings moment (underway_of_suffix momentToo suffix)
  rcases (fails_of_mem momentToo fails member).eq_or_precedes sorted with rfl | precedes
  · exact .within suffix
  · exact .before List.mem_cons_self member precedes

/-- Every activation has its place, seen from a failing stack. -/
theorem placed (moment : (once budget image request).Underway (running :: below))
    (momentToo : (once budget image request).Underway (top :: rest)) (fails : top.Fails) :
    Placed running below (top :: rest) := by
  -- What asked for the activation has its place already.  Only if that is on the stack, what stands
  -- on it there decides.
  induction below generalizing running with
  | nil =>
      have split : (top :: rest).dropLast ++ [(top :: rest).getLast (List.cons_ne_nil _ _)] =
          top :: rest := List.dropLast_append_getLast _
      exact placed_of_place moment momentToo fails ⟨_, split⟩
  | cons parent between inductionHypothesis =>
      cases inductionHypothesis (underway_of_suffix moment (List.suffix_cons running _)) with
      | within suffix =>
          rcases eq_or_next_of_suffix suffix with same | ⟨next, suffix⟩
          · rw [← same]
            exact .above (List.suffix_refl _)
          · exact placed_of_place moment momentToo fails suffix
      | above suffix => exact .above (suffix.trans (List.suffix_cons _ _))
      | before member memberToo precedes =>
          exact .before (List.mem_cons_of_mem _ member) memberToo precedes

end Once

end Session

end MessageMachine
