import MessageMachine.Proofs.Foundation
import MessageMachine.Proofs.Moments

/-!
# Disciplines

A discipline is something that programs keep to while they run: what holds of every image on the
way, what is true of the values and escapes that come up, and what can be counted on when an
activation is asked for.  Its laws say what single steps do.  Evaluations then keep to the
discipline as long as the activations do that they ask for, and ask for no others than those that
can be counted on.

What evaluations ask for is a part of the judgement, since a step may depend on it that the
evaluation is one of a certain session.
-/

namespace MessageMachine

/-- What programs keep to while they run. -/
structure Discipline where
  /-- What holds of the image. -/
  Holds : Image → Prop
  /-- What an image and a later one have in common. -/
  Later : Image → Image → Prop
  /-- What is true of values. -/
  Good : Image → Value → Prop
  /-- What is true of escapes. -/
  Fine : Image → Escape → Prop
  /-- Whether an expression belongs into a frame. -/
  Fits : Image → FrameRef → Code → Prop
  /-- What is true of an activation when it is asked for. -/
  Runs : Image → Activation → Prop
  /-- The activations that the discipline is about. -/
  Begun : Running → Prop
  /-- The evaluations of expressions that the discipline is about. -/
  Here : FrameRef → Code → Image → Prop
  /-- The values of their parts that these expressions go on with. -/
  Given : FrameRef → Code → List Value → Image → Prop

namespace Discipline

variable (D : Discipline)

/-- Whether all of some values are good. -/
def AllGood (image : Image) (values : List Value) : Prop :=
  ∀ value ∈ values, D.Good image value

/-- Results that keep to a discipline. -/
inductive Yields {Answer : Type} (good : Image → Answer → Prop) (start : Image) :
    EStateM.Result Escape Image Answer → Prop
  | ok {answer : Answer} {after : Image} : D.Holds after → D.Later start after →
      good after answer → Yields good start (.ok answer after)
  | error {escape : Escape} {after : Image} : D.Holds after → D.Later start after →
      D.Fine after escape → Yields good start (.error escape after)

/-- What comes with asking for an activation. -/
structure Warrants {Answer : Type} (body : Machine → Eval Answer) (machine : Machine)
    (start : Image) (activation : Activation) (image : Image) : Prop where
  asks : Asks body machine start activation image
  holds : D.Holds image
  later : D.Later start image
  runs : D.Runs image activation
  rest : D.Later (Eval.left (machine.activate activation image)) (Eval.left (body machine start))

/-- Whether an activation that a machine is asked for is over in a later image, and did not
escape. -/
def Over (machine : Machine) (activation : Activation) (image after : Image) : Prop :=
  Eval.Subsides (machine.activate activation image) ∧
    D.Later (Eval.left (machine.activate activation image)) after

/-- Whether one of two activations that a machine is asked for is over when it is asked for the
other. -/
def Ordered (machine : Machine) (activation : Activation) (image : Image)
    (another : Activation) (imageToo : Image) : Prop :=
  D.Over machine activation image imageToo ∨ D.Over machine another imageToo image

/-- An evaluation that keeps to a discipline. -/
structure Obeys {Answer : Type} (good : Image → Answer → Prop) (machine : Machine) (start : Image)
    (body : Machine → Eval Answer) : Prop where
  yields : D.Yields good start (body machine start)
  warrants : ∀ activation image, D.Warrants body machine start activation image ∨
    Ignores body machine start activation image
  ordered : ∀ {activation image another imageToo},
    Asks body machine start activation image → Asks body machine start another imageToo →
    activation = another ∧ image = imageToo ∨
      D.Ordered machine activation image another imageToo
  origin : ∀ {exception after}, body machine start = .error (.failed exception) after →
    (∃ activation image, Asks body machine start activation image ∧
      machine.activate activation image = .error (.failed exception) after) ∨
    exception.backtrace = #[]

/-- Whether the activations that an evaluation asks for keep to a discipline. -/
def Trusts {Answer : Type} (machine : Machine) (start : Image) (body : Machine → Eval Answer) :
    Prop :=
  ∀ activation image, Asks body machine start activation image → D.Holds image →
    D.Later start image → D.Runs image activation →
    D.Yields D.Good image (machine.activate activation image)

/-- Whether an evaluation keeps to a discipline if the activations do that it asks for. -/
def Keeps {Answer : Type} (good : Image → Answer → Prop) (machine : Machine) (start : Image)
    (body : Machine → Eval Answer) : Prop :=
  D.Trusts machine start body → D.Obeys good machine start body

/-- Evaluations with a value. -/
abbrev Evaluates (machine : Machine) (start : Image) (body : Machine → Eval Value) : Prop :=
  D.Keeps D.Good machine start body

/-- What the order of images has to satisfy. -/
structure Order : Prop where
  refl : ∀ image, D.Later image image
  trans : ∀ {image between after}, D.Later image between → D.Later between after →
    D.Later image after

variable {D}
variable {Answer Next : Type} {good : Image → Answer → Prop} {goodNext : Image → Next → Prop}
  {machine : Machine} {start : Image}

theorem Yields.later (order : D.Order) {between : Image} (later : D.Later start between)
    {result : EStateM.Result Escape Image Answer} (yielded : D.Yields good between result) :
    D.Yields good start result := by
  cases yielded with
  | ok holds further known => exact .ok holds (order.trans later further) known
  | error holds further known => exact .error holds (order.trans later further) known

theorem Yields.left_later {result : EStateM.Result Escape Image Answer}
    (yielded : D.Yields good start result) : D.Later start (Eval.left result) := by
  cases yielded with
  | ok _ later _ => exact later
  | error _ later _ => exact later

theorem Yields.left_holds {result : EStateM.Result Escape Image Answer}
    (yielded : D.Yields good start result) : D.Holds (Eval.left result) := by
  cases yielded with
  | ok holds _ _ => exact holds
  | error holds _ _ => exact holds

/-- What an evaluation asks for can be counted on. -/
theorem Obeys.warrant {body : Machine → Eval Answer} (obeys : D.Obeys good machine start body)
    {activation : Activation} {image : Image} (asks : Asks body machine start activation image) :
    D.Warrants body machine start activation image := by
  rcases obeys.warrants activation image with warrants | ignores
  · exact warrants
  · exact absurd ignores asks.not_ignores

theorem Obeys.asks_or_ignores {body : Machine → Eval Answer}
    (obeys : D.Obeys good machine start body) (activation : Activation) (image : Image) :
    Asks body machine start activation image ∨ Ignores body machine start activation image :=
  (obeys.warrants activation image).imp (·.asks) id

namespace Trusts

variable {body : Machine → Eval Answer} {next : Answer → Machine → Eval Next}

/-- What the beginning of an evaluation asks for, the evaluation asks for. -/
theorem first (trusts : D.Trusts machine start fun machine =>
    body machine >>= fun answer => next answer machine) : D.Trusts machine start body :=
  fun activation image asks => trusts activation image asks.bind

/-- What the rest of an evaluation asks for, the evaluation asks for. -/
theorem rest (order : D.Order) (begun : D.Obeys good machine start body) {answer : Answer}
    {between : Image} (result : body machine start = .ok answer between)
    (trusts : D.Trusts machine start fun machine =>
      body machine >>= fun answer => next answer machine) :
    D.Trusts machine between (next answer) := by
  intro activation image asks holds later runs
  have before : D.Later start between := by
    have earlier := begun.yields.left_later
    rwa [result] at earlier
  refine trusts activation image ?_ holds (order.trans before later) runs
  rcases begun.asks_or_ignores activation image with asked | ignores
  · exact asked.bind
  · exact .bind_next ignores result asks

/-- Evaluations are compared where they start, on machines with the same patience. -/
theorem congr {other : Machine → Eval Answer}
    (same : ∀ another : Machine, another.patience = machine.patience →
      other another start = body another start) (trusts : D.Trusts machine start other) :
    D.Trusts machine start body := by
  intro activation image asks
  refine trusts activation image fun another agrees => ?_
  rw [same another agrees.patience]
  exact asks another agrees

end Trusts

namespace Keeps

/-- Evaluations that ask for nothing. -/
theorem still {body : Eval Answer} (yielded : D.Yields good start (body start))
    (fresh : ∀ escape after, body start = .error escape after → escape.Fresh) :
    D.Keeps good machine start fun _ => body := by
  have ignores : ∀ activation image,
      Ignores (fun _ => body) machine start activation image := fun _ _ _ _ => rfl
  exact fun _ => {
    yields := yielded
    warrants := fun activation image => Or.inr (ignores activation image)
    ordered := fun asks _ => absurd (ignores _ _) asks.not_ignores
    origin := fun failed => Or.inr (fresh _ _ failed) }

theorem pure (order : D.Order) (holds : D.Holds start) {answer : Answer}
    (known : good start answer) : D.Keeps good machine start fun _ => Pure.pure answer :=
  still (.ok holds (order.refl start) known) fun _ _ escaped => by cases escaped

theorem throw (order : D.Order) (holds : D.Holds start) {escape : Escape} (fresh : escape.Fresh)
    (fine : D.Fine start escape) :
    D.Keeps good machine start fun _ => MonadExcept.throw escape :=
  still (.error holds (order.refl start) fine) fun _ _ escaped => by cases escaped; exact fresh

theorem modifyGet {change : Image → Answer × Image} (holds : D.Holds (change start).2)
    (later : D.Later start (change start).2) (known : good (change start).2 (change start).1) :
    D.Keeps good machine start fun _ => MonadState.modifyGet change :=
  still (.ok holds later known) fun _ _ escaped => by cases escaped

/-- An activation that is asked for. -/
theorem activate (order : D.Order) (holds : D.Holds start) {activation : Activation}
    (runs : D.Runs start activation) :
    D.Evaluates machine start fun machine => machine.activate activation := by
  intro trusts
  have asks : Asks (fun machine => machine.activate activation) machine start activation start :=
    .activate activation start
  refine ⟨trusts activation start asks holds (order.refl start) runs, fun asked image => ?_,
    fun asking askingToo => ?_, fun failed => Or.inl ⟨activation, start, asks, failed⟩⟩
  · by_cases same : activation = asked ∧ start = image
    · rcases same with ⟨rfl, rfl⟩
      exact Or.inl ⟨asks, holds, order.refl start, runs, order.refl _⟩
    · exact Or.inr (.activate same)
  · obtain ⟨rfl, rfl⟩ := asking.eq_of_activate
    exact Or.inl askingToo.eq_of_activate

/-- Evaluations are compared where they start, on machines with the same patience. -/
theorem congr {body other : Machine → Eval Answer}
    (same : ∀ another : Machine, another.patience = machine.patience →
      other another start = body another start)
    (kept : D.Keeps good machine start body) : D.Keeps good machine start other := by
  have here : other machine start = body machine start := same machine rfl
  have asking : ∀ activation image, Asks other machine start activation image ↔
      Asks body machine start activation image := by
    intro activation image
    constructor
    · intro asks another agrees
      rw [← same another agrees.patience]
      exact asks another agrees
    · intro asks another agrees
      rw [same another agrees.patience]
      exact asks another agrees
  intro trusts
  have obeys := kept (trusts.congr same)
  refine ⟨here ▸ obeys.yields, fun activation image => ?_, fun asks asksToo => ?_,
    fun failed => ?_⟩
  · rcases obeys.warrants activation image with warrants | ignores
    · exact Or.inl { warrants with
        asks := (asking activation image).mpr warrants.asks
        rest := here ▸ warrants.rest }
    · refine Or.inr fun another agrees => ?_
      rw [same another agrees.patience, here]
      exact ignores another agrees
  · exact obeys.ordered ((asking _ _).mp asks) ((asking _ _).mp asksToo)
  · refine (obeys.origin (here ▸ failed)).imp_left ?_
    exact fun ⟨activation, image, asks, same⟩ =>
      ⟨activation, image, (asking activation image).mpr asks, same⟩

/-- An evaluation that looks at the image. -/
theorem get {next : Image → Machine → Eval Answer}
    (kept : D.Keeps good machine start (next start)) :
    D.Keeps good machine start fun machine =>
      MonadState.get >>= fun image => next image machine := by
  refine congr ?_ kept
  exact fun _ _ => rfl

/-- Something is made of the result of an evaluation, but not of the escapes that pass, and failures
are not made up. -/
theorem adapt {body : Machine → Eval Answer}
    {change : EStateM.Result Escape Image Answer → EStateM.Result Escape Image Next}
    (passing : ∀ escape left, escape.Passes → change (.error escape left) = .error escape left)
    (left : ∀ result, Eval.left (change result) = Eval.left result)
    (failing : ∀ result exception after, change result = .error (.failed exception) after →
      result = .error (.failed exception) after)
    (yields : ∀ result, D.Yields good start result → D.Yields goodNext start (change result))
    (kept : D.Keeps good machine start body) :
    D.Keeps goodNext machine start fun machine image => change (body machine image) := by
  have asked : ∀ {activation image}, Asks body machine start activation image →
      Asks (fun machine image => change (body machine image)) machine start activation image := by
    intro activation image asks other agrees escape after passes escaped
    dsimp only
    rw [asks other agrees escape after passes escaped]
    exact passing escape after passes
  have ignored : ∀ {activation image}, Ignores body machine start activation image →
      Ignores (fun machine image => change (body machine image)) machine start activation
        image := by
    intro activation image ignores other agrees
    dsimp only
    rw [ignores other agrees]
  intro trusts
  have obeys := kept fun activation image asks => trusts activation image (asked asks)
  have asking : ∀ {activation image},
      Asks (fun machine image => change (body machine image)) machine start activation image →
      Asks body machine start activation image := by
    intro activation image asks
    rcases obeys.asks_or_ignores activation image with asksToo | ignores
    · exact asksToo
    · exact absurd (ignored ignores) asks.not_ignores
  refine ⟨yields _ obeys.yields, fun activation image => ?_,
    fun asks asksToo => obeys.ordered (asking asks) (asking asksToo), fun failed =>
      (obeys.origin (failing _ _ _ failed)).imp_left fun ⟨activation, image, asks, same⟩ =>
        ⟨activation, image, asked asks, same⟩⟩
  rcases obeys.warrants activation image with warrants | ignores
  · refine Or.inl { warrants with asks := asked warrants.asks, rest := ?_ }
    rw [left]
    exact warrants.rest
  · exact Or.inr (ignored ignores)

section Bind

variable {body : Machine → Eval Answer} {next : Answer → Machine → Eval Next}

/-- An evaluation that escapes before its rest is begun. -/
theorem bind_error {escape : Escape} {after : Image}
    (begun : D.Obeys good machine start body) (result : body machine start = .error escape after) :
    D.Obeys goodNext machine start fun machine =>
      body machine >>= fun answer => next answer machine := by
  have unchanged : (body machine >>= fun answer => next answer machine) start =
      .error escape after := by
    simp only [Bind.bind, EStateM.bind, result]
  have warranted : ∀ activation image,
      D.Warrants (fun machine => body machine >>= fun answer => next answer machine) machine start
        activation image ∨
      Ignores (fun machine => body machine >>= fun answer => next answer machine) machine start
        activation image := by
    intro activation image
    rcases begun.warrants activation image with warrants | ignores
    · refine Or.inl { warrants with asks := warrants.asks.bind, rest := ?_ }
      have rest := warrants.rest
      rw [result] at rest
      rw [unchanged]
      exact rest
    · refine Or.inr fun other agrees => ?_
      simp only [Bind.bind, EStateM.bind, ignores other agrees, result]
  have asked : ∀ {activation image},
      Asks (fun machine => body machine >>= fun answer => next answer machine) machine start
        activation image → Asks body machine start activation image := by
    intro activation image asks
    rcases begun.asks_or_ignores activation image with asked | ignores
    · exact asked
    · refine absurd (fun other agrees => ?_) asks.not_ignores
      simp only [Bind.bind, EStateM.bind, ignores other agrees, result]
  refine ⟨?_, warranted, fun asks asksToo => begun.ordered (asked asks) (asked asksToo),
    fun failed => ?_⟩
  · have yielded := begun.yields
    rw [result] at yielded
    rw [unchanged]
    cases yielded with
    | error holds later fine => exact .error holds later fine
  · cases unchanged.symm.trans failed
    refine (begun.origin result).imp_left ?_
    exact fun ⟨activation, image, asks, same⟩ => ⟨activation, image, asks.bind, same⟩

/-- An evaluation that goes on to its rest. -/
theorem bind_ok (order : D.Order) {answer : Answer} {between : Image}
    (begun : D.Obeys good machine start body) (result : body machine start = .ok answer between)
    (continued : D.Obeys goodNext machine between (next answer)) :
    D.Obeys goodNext machine start fun machine =>
      body machine >>= fun answer => next answer machine := by
  have continues : (body machine >>= fun answer => next answer machine) start =
      next answer machine between := by
    simp only [Bind.bind, EStateM.bind, result]
  have later : D.Later start between := by
    have earlier := begun.yields.left_later
    rwa [result] at earlier
  -- What was asked for by the beginning is over when the rest is begun.
  have ended : ∀ {activation image}, Asks body machine start activation image →
      D.Over machine activation image between := by
    intro activation image asks
    have rest := (begun.warrant asks).rest
    rw [result] at rest
    exact ⟨asks.subsides result, rest⟩
  refine ⟨?_, fun activation image => ?_,
    fun {activation image another imageToo} asks asksToo => ?_, fun failed => ?_⟩
  · rw [continues]
    exact continued.yields.later order later
  · rcases begun.warrants activation image with warrants | ignores
    · refine Or.inl { warrants with asks := warrants.asks.bind, rest := ?_ }
      rw [continues]
      exact order.trans (ended warrants.asks).2 continued.yields.left_later
    · rcases continued.warrants activation image with warrants | ignoresNext
      · refine Or.inl {
          asks := .bind_next ignores result warrants.asks
          holds := warrants.holds
          later := order.trans later warrants.later
          runs := warrants.runs
          rest := ?_ }
        rw [continues]
        exact warrants.rest
      · refine Or.inr fun other agrees => ?_
        simp only [Bind.bind, EStateM.bind, ignores other agrees, result]
        exact ignoresNext other agrees
  · rcases begun.asks_or_ignores activation image with first | ignores
    · rcases begun.asks_or_ignores another imageToo with second | ignoresToo
      · exact begun.ordered first second
      · have warrants := continued.warrant (asksToo.of_bind ignoresToo result)
        exact Or.inr (Or.inl ⟨(ended first).1, order.trans (ended first).2 warrants.later⟩)
    · have warrants := continued.warrant (asks.of_bind ignores result)
      rcases begun.asks_or_ignores another imageToo with second | ignoresToo
      · exact Or.inr (Or.inr ⟨(ended second).1, order.trans (ended second).2 warrants.later⟩)
      · exact continued.ordered (asks.of_bind ignores result) (asksToo.of_bind ignoresToo result)
  · refine (continued.origin (continues.symm.trans failed)).imp_left ?_
    rintro ⟨activation, image, asks, same⟩
    refine ⟨activation, image, ?_, same⟩
    rcases begun.asks_or_ignores activation image with asked | ignores
    · exact asked.bind
    · exact .bind_next ignores result asks

/-- One evaluation after the other. -/
theorem bind_of_eq (order : D.Order) (kept : D.Keeps good machine start body)
    (continued : ∀ after answer, body machine start = .ok answer after → D.Holds after →
      D.Later start after → good after answer → D.Keeps goodNext machine after (next answer)) :
    D.Keeps goodNext machine start fun machine =>
      body machine >>= fun answer => next answer machine := by
  intro trusts
  have begun : D.Obeys good machine start body := kept trusts.first
  cases result : body machine start with
  | error escape after => exact bind_error begun result
  | ok answer between =>
      have yielded := begun.yields
      rw [result] at yielded
      cases yielded with
      | ok holds later known =>
          have rest := continued between answer result holds later known
          exact bind_ok order begun result (rest (trusts.rest order begun result))

/-- The rest of an evaluation comes later than its beginning. -/
theorem bind_rest (order : D.Order) (kept : D.Keeps good machine start body)
    (continued : ∀ after answer, body machine start = .ok answer after → D.Holds after →
      D.Later start after → good after answer → D.Keeps goodNext machine after (next answer))
    (trusts : D.Trusts machine start fun machine =>
      body machine >>= fun answer => next answer machine) :
    D.Later (Eval.left (body machine start))
      (Eval.left ((body machine >>= fun answer => next answer machine) start)) := by
  have begun : D.Obeys good machine start body := kept trusts.first
  cases result : body machine start with
  | error escape after =>
      simp only [Bind.bind, EStateM.bind, result]
      exact order.refl after
  | ok answer between =>
      have yielded := begun.yields
      rw [result] at yielded
      cases yielded with
      | ok holds later known =>
          have rest := continued between answer result holds later known
          simp only [Bind.bind, EStateM.bind, result]
          exact (rest (trusts.rest order begun result)).yields.left_later

theorem bind (order : D.Order) (kept : D.Keeps good machine start body)
    (continued : ∀ after answer, D.Holds after → D.Later start after → good after answer →
      D.Keeps goodNext machine after (next answer)) :
    D.Keeps goodNext machine start fun machine =>
      body machine >>= fun answer => next answer machine :=
  bind_of_eq order kept fun after answer _ => continued after answer

end Bind

end Keeps

end Discipline

end MessageMachine
