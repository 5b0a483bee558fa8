import MessageMachine.Proofs.Histories
import MessageMachine.Proofs.StorageJoin

/-!
# The storages that a session ends with

A history of a session writes nothing but what the session writes.  The converse holds for whole
sessions.  Wherever something is written to a field that there is, by an assignment, by the
operation that writes fields or by the host, the session takes an action that writes it, and goes on
from there to its end.  So the storage that a class has for a field in the end is the least one
above all that was ever written to the field in the session.
-/

namespace MessageMachine

open Discipline

theorem Image.Reaches.retains {start image : Image} {actions : List Action}
    (reached : start.Reaches actions image) : start.Retains image := by
  induction reached with
  | start => exact .refl start
  | act action _ allowed inductionHypothesis =>
      exact inductionHypothesis.trans (Action.retains_perform allowed)

theorem Image.Retains.fieldCount_object {before after : Image} (retains : before.Retains after)
    {target : ObjectRef} (known : before.heap.objects.Has target)
    (owner : before.classes.Has (before.objectAt target).owner) :
    after.fieldCount (.object target) = before.fieldCount (.object target) := by
  rw [Image.fieldCount, Image.fieldCount, retains.owners target known, retains.fieldNames owner]

/-- What an assignment leaves is what is left by the write, whether there is such a field or not. -/
theorem Code.left_finish_writeField (machine : Machine) (frame : FrameRef) (receiver value : Value)
    (site : FieldSiteRef) (index : Nat) (code : Code) (image : Image) :
    Eval.left ((Code.writeField site index code).finish machine frame receiver [value] image) =
      (image.writeFieldAt site (image.frameAt frame).receiver index value).2 := by
  rw [Code.finish, Eval.get_bind, Eval.modifyGet_bind]
  cases (image.writeFieldAt site (image.frameAt frame).receiver index value).1 <;> rfl

/-- Where there is such a field, the operation that writes fields does nothing but write it. -/
theorem Primitive.Assigns.left_run {primitive : Primitive} {image : Image} {arguments : List Value}
    {receiver value : Value} {index : Nat}
    (assigns : primitive.Assigns image arguments receiver index value) (machine : Machine)
    (selector : Selector) (written : (image.writeField receiver index value).1 = true) :
    Eval.left (machine.runPrimitive primitive selector arguments image) =
      (image.writeField receiver index value).2 := by
  cases assigns with
  | @intro _ _ position offset _ rest subtracted found =>
      have ran : (Primitive.object .fieldAtPut).run machine
          (receiver :: .integer position :: value :: rest) image =
            .ok value (image.writeField receiver index value).2 := by
        change ObjectOperation.run machine .fieldAtPut
          (receiver :: .integer position :: value :: rest) image = _
        unfold ObjectOperation.run
        dsimp only
        rw [Eval.difference_bind, subtracted]
        dsimp only
        rw [Eval.modifyGet_bind, found]
        dsimp only
        rw [written]
        rfl
      rw [runPrimitive_eq]
      simp only [Bind.bind, EStateM.bind, ran]
      rfl

namespace Session

variable {session : Session} (begun : session.start.WellFormed)
  (admissible : ∀ {request image}, session.Serves request image → request.Admissible image)
include begun admissible

/-- What an activation leaves is not the end: the session goes on from there. -/
theorem goes_on_after_running {running : Running} {below : List Running}
    (underway : session.Underway (running :: below)) :
    ∃ actions, session.Takes running.left actions session.outcome.2 := by
  have laws := recording_laws begun
  have clock := histories_clock begun admissible
  obtain ⟨request, served, serves, -, finished⟩ :=
    clock.during_request laws (recording_hosts begun admissible) underway
  exact laws.trans finished (clock.over_of_serves id serves)

omit begun admissible in
/-- An action that a session takes on the way to its end is part of a history of the whole
session. -/
theorem exists_history_of_action {between : Image} {action : Action}
    (history : (recording session).Holds between) (allowed : action.Allowed between)
    (does : session.Does action)
    (rest : ∃ later, session.Takes (action.perform between) later session.outcome.2) :
    ∃ actions, action ∈ actions ∧ session.Takes session.start actions session.outcome.2 := by
  obtain ⟨earlier, before⟩ := history
  obtain ⟨later, after⟩ := rest
  refine ⟨earlier ++ [action] ++ later, ?_, (before.trans (.single allowed does)).trans after⟩
  exact List.mem_append_left _ (List.mem_append_right _ (List.mem_singleton_self action))

/-- What a session writes to a field that there is, an action of a history of the session writes. -/
theorem exists_history_of_writes
    (laid : ∀ actions image, session.Takes session.start actions image → image.Laid)
    {target : ObjectRef} {index : Nat} {value : Value}
    (writes : session.Writes (.object target) index value)
    (inside : index < session.outcome.2.fieldCount (.object target)) :
    ∃ actions action, action ∈ actions ∧ action.assigns = some (.object target, index, value) ∧
      session.Takes session.start actions session.outcome.2 := by
  have laws := recording_laws begun
  have hosts := recording_hosts begun admissible
  have clock := histories_clock begun admissible
  generalize same : Value.object target = receiver at writes ⊢
  cases writes with
  | @assignment frame site _ code _ between supplies =>
      cases supplies with
      | @intro running below earlier underway evaluates supplied =>
          obtain ⟨place, placed⟩ := Running.evaluates_iff.mp evaluates
          let moment : session.Moment :=
            ⟨running, below, place, frame, .writeField site index code, earlier, underway, placed⟩
          obtain ⟨history, provided, allKnown, -⟩ := moment.recorded begun admissible supplied
          have known := ((recording_formed begun history).within.frames frame).receiver
          have allowed : (Action.writeFieldAt site (between.frameAt frame).receiver index
              value).Allowed between :=
            ⟨known, allKnown.head, Or.inr (provided _ List.mem_cons_self)⟩
          have left : moment.after = (Action.writeFieldAt site (between.frameAt frame).receiver
              index value).perform between := by
            rw [Moment.after, moment.result_eq_finish supplied]
            exact Code.left_finish_writeField _ _ _ _ _ _ _ _
          have rest := laws.trans (clock.during_running laws hosts moment).2
            (goes_on_after_running begun admissible underway)
          rw [left] at rest
          obtain ⟨actions, member, taken⟩ := exists_history_of_action history allowed
            (Writes.assignment (.intro underway evaluates supplied)) rest
          exact ⟨actions, _, member, rfl, taken⟩
  | @operation budget ref arguments started below primitive _ _ _ underway behavior assigns =>
      obtain ⟨history, allKnown⟩ := hosts.underway laws underway
      have known : receiver.Exists started := allKnown receiver assigns.receiver_mem
      have allowed : (Action.writeField receiver index value).Allowed started :=
        ⟨known, allKnown value assigns.value_mem⟩
      have rest := goes_on_after_running begun admissible underway
      obtain ⟨_, whole⟩ := laws.trans (clock.later_left laws hosts underway) rest
      obtain ⟨_, taken⟩ := history
      subst same
      rw [whole.reaches.retains.fieldCount_object known
        ((recording_formed begun ⟨_, taken⟩).within.owners target known)] at inside
      rcases (laid _ _ taken).writeField known index value with ⟨-, written, -⟩ | ⟨outside, -⟩
      · have left : Running.left ⟨budget + 1, .method ref arguments, started⟩ =
            (Action.writeField (.object target) index value).perform started := by
          change Eval.left ((Machine.ofBudget budget).invoke ref arguments started) = _
          rw [Machine.invoke, Eval.get_bind]
          simp only [behavior]
          exact assigns.left_run _ _ written
        rw [left] at rest
        obtain ⟨actions, member, taken⟩ := exists_history_of_action ⟨_, taken⟩ allowed
          (Writes.operation underway behavior assigns) rest
        exact ⟨actions, _, member, rfl, taken⟩
      · exact absurd inside outside
  | @request _ _ _ served serves =>
      have history := (always_recorded begun admissible).served serves
      have allowed : (Action.writeField receiver index value).Allowed served := admissible serves
      obtain ⟨actions, member, taken⟩ := exists_history_of_action history allowed
        (Writes.request serves) (clock.over_of_serves id serves)
      exact ⟨actions, _, member, rfl, taken⟩

end Session

section Sessions

variable {platform : Platform} {settings : Settings} {listening : Bool} {budget : Nat}
  {requests : List Request}

/-- At every moment of a session the storages of the inline fields are joins of what a history of
the session has written, and such a history writes nothing that the session does not write. -/
theorem storages_always_joined
    (admissible : Request.Throughout (.ofBudget budget)
      (fun image request => request.Admissible image) requests
      (.initial platform settings listening)) :
    (Session.fresh platform settings listening budget requests).Always fun image =>
      ∃ actions, Session.Takes (.fresh platform settings listening budget requests)
          (.initial platform settings listening) actions image ∧
        ∀ ref, image.classes.Has ref → ∀ index < (image.classAt ref).fields.length,
          index < inlineFields → ∃ storage, image.storageAt? ref index = some storage ∧
            Storage.IsJoin (image.writtenKinds actions ref index) storage :=
  (always_recorded_fresh admissible).imp fun _ ⟨actions, taken⟩ =>
    ⟨actions, taken, fun _ known _ inside inline => taken.reaches.isJoin known inside inline⟩

/-- When a session ends, a class stores each of its inline fields in the least way that admits
everything that was written to the field of its instances in the session, by assignments, by the
operation that writes fields and by the host. -/
theorem final_storage_is_least
    (admissible : Request.Throughout (.ofBudget budget)
      (fun image request => request.Admissible image) requests
      (.initial platform settings listening)) {ref : ClassRef} {index : Nat} :
    let session := Session.fresh platform settings listening budget requests
    let final := session.outcome.2
    let Written := fun value => ∃ target, (final.objectAt target).owner = ref ∧
      session.Writes (.object target) index value
    final.classes.Has ref → index < (final.classAt ref).fields.length → index < inlineFields →
    ∃ storage, final.storageAt? ref index = some storage ∧ storage ≠ .overflow ∧
      (∀ value, Written value → (Storage.forValue index value).Widens storage) ∧
      ∀ bound, bound ≠ .overflow →
        (∀ value, Written value → (Storage.forValue index value).Widens bound) →
        storage.Widens bound := by
  intro session final Written known inside inline
  have begun := Session.wellFormed_fresh platform settings listening budget requests
  have fresh : ∀ actions image, session.Takes session.start actions image →
      (Image.initial platform settings listening).Reaches actions image := by
    intro actions image taken
    have reached := taken.reaches
    rwa [Session.start_fresh] at reached
  have laid : ∀ actions image, session.Takes session.start actions image → image.Laid :=
    fun _ _ taken => (fresh _ _ taken).faithful.laid
  obtain ⟨actions, taken⟩ := (always_recorded begun admissible.of_fresh).ended
  obtain ⟨storage, stored, isJoin⟩ := (fresh _ _ taken).isJoin known inside inline
  refine ⟨storage, stored, isJoin.inside, ?_, fun bound boundInside bounds => ?_⟩
  · rintro value ⟨target, owner, writes⟩
    have there : index < final.fieldCount (.object target) := by
      rw [Image.fieldCount, owner]
      exact inside
    obtain ⟨whole, action, member, assigned, takenToo⟩ :=
      Session.exists_history_of_writes begun admissible.of_fresh laid writes there
    obtain ⟨storageToo, storedToo, isJoinToo⟩ := (fresh _ _ takenToo).isJoin known inside inline
    cases storedToo.symm.trans stored
    exact isJoinToo.upper _
      (Image.mem_writtenKinds.mpr ⟨action, member, target, value, assigned, owner, rfl⟩)
  · refine isJoin.least bound boundInside fun kind member => ?_
    obtain ⟨action, taking, target, value, assigned, owner, rfl⟩ := Image.mem_writtenKinds.mp member
    exact bounds value ⟨target, owner, (taken.does action taking).writes assigned⟩

end Sessions

end MessageMachine
