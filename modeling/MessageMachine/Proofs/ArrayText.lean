import Mathlib.Data.Fintype.Card
import Mathlib.Logic.Relation
import MessageMachine.Machine.Image
import MessageMachine.Proofs.Tables

/-!
# The texts of arrays

The text of an array is made of the texts of its elements, which may be arrays again.  An array that
is nested in itself has no text, however far it is opened up.  Every other array is nested no deeper
than there are arrays: below an array of some depth there are arrays of all smaller depths, and no
two of them are the same.  So nothing is lost by looking no deeper than that.
-/

namespace MessageMachine

/-- Every element is mapped if the list is. -/
theorem isSome_mapM_iff {Item Answer : Type} {read : Item → Option Answer} {items : List Item} :
    (items.mapM read).isSome ↔ ∀ item ∈ items, (read item).isSome := by
  induction items with
  | nil => simp
  | cons first rest inductionHypothesis =>
      rw [List.forall_mem_cons, ← inductionHypothesis, List.mapM_cons]
      cases read first with
      | none => simp
      | some answer => cases rest.mapM read <;> simp

/-- What is read from every element is read from the list, whatever it is read by. -/
theorem mapM_eq_of_imp {Item Answer : Type} {read other : Item → Option Answer}
    {items : List Item} {answers : List Answer}
    (same : ∀ item ∈ items, ∀ answer, read item = some answer → other item = some answer)
    (found : items.mapM read = some answers) : items.mapM other = some answers := by
  induction items generalizing answers with
  | nil => exact found
  | cons first rest inductionHypothesis =>
      rw [List.mapM_cons] at found ⊢
      obtain ⟨answer, head, found⟩ := Option.bind_eq_some_iff.mp found
      obtain ⟨others, tail, found⟩ := Option.bind_eq_some_iff.mp found
      cases found
      have tailToo := inductionHypothesis
        (fun item member => same item (List.mem_cons_of_mem first member)) tail
      rw [same first List.mem_cons_self answer head, tailToo]
      rfl

namespace Image

variable {image : Image} {depth more : Nat} {value : Value} {outer inner ref : ArrayRef}

/-- Opening arrays up further does not change a text. -/
theorem textWithin_mono (enough : depth ≤ more) {text : String}
    (found : image.textWithin depth value = some text) :
    image.textWithin more value = some text := by
  induction depth generalizing more value text with
  | zero =>
      cases value with
      | array ref => cases found
      | _ => cases more <;> exact found
  | succ depth inductionHypothesis =>
      cases more with
      | zero => cases enough
      | succ more =>
          cases value with
          | array ref =>
              rw [textWithin] at found ⊢
              obtain ⟨texts, read, rfl⟩ := Option.map_eq_some_iff.mp found
              rw [mapM_eq_of_imp (fun item _ text found =>
                inductionHypothesis (Nat.le_of_succ_le_succ enough) found) read]
              rfl
          | _ => exact found

theorem isSome_textWithin_mono (enough : depth ≤ more)
    (found : (image.textWithin depth value).isSome) : (image.textWithin more value).isSome := by
  obtain ⟨text, found⟩ := Option.isSome_iff_exists.mp found
  exact Option.isSome_iff_exists.mpr ⟨text, textWithin_mono enough found⟩

/-- An array has a text if its elements do, one level deeper. -/
theorem isSome_textWithin_array :
    (image.textWithin (depth + 1) (.array ref)).isSome ↔
      ∀ element ∈ image.arrayAt ref, (image.textWithin depth element).isSome := by
  rw [textWithin, Option.isSome_map, isSome_mapM_iff]
  simp only [Array.mem_toList_iff]

/-- What has no text is an array. -/
theorem exists_array_of_textWithin (none : ¬(image.textWithin depth value).isSome) :
    ∃ ref, value = .array ref := by
  cases value with
  | array ref => exact ⟨ref, rfl⟩
  | _ => cases depth <;> exact absurd rfl none

/-- Whether an array has to be opened up one level beyond a depth, and no further. -/
structure Ripens (image : Image) (depth : Nat) (ref : ArrayRef) : Prop where
  before : ¬(image.textWithin depth (.array ref)).isSome
  after : (image.textWithin (depth + 1) (.array ref)).isSome

namespace Ripens

/-- An array has one depth only. -/
theorem unique (ripens : image.Ripens depth ref) (ripensToo : image.Ripens more ref) :
    depth = more := by
  rcases Nat.lt_trichotomy depth more with less | same | greater
  · exact absurd (isSome_textWithin_mono less ripens.after) ripensToo.before
  · exact same
  · exact absurd (isSome_textWithin_mono greater ripensToo.after) ripens.before

/-- What has to be opened up twice has an element that has to be opened up once less. -/
theorem exists_inner (ripens : image.Ripens (depth + 1) ref) :
    ∃ inner, .array inner ∈ image.arrayAt ref ∧ image.Ripens depth inner := by
  have none := ripens.before
  rw [isSome_textWithin_array] at none
  simp only [not_forall] at none
  obtain ⟨element, member, none⟩ := none
  obtain ⟨inner, rfl⟩ := exists_array_of_textWithin none
  exact ⟨inner, member, none, isSome_textWithin_array.mp ripens.after _ member⟩

/-- An array with elements exists. -/
theorem has (ripens : image.Ripens (depth + 1) ref) : image.heap.arrays.Has ref := by
  obtain ⟨inner, member, -⟩ := ripens.exists_inner
  by_contra absent
  rw [arrayAt, Arena.get_of_not_has absent] at member
  exact Array.not_mem_empty _ member

/-- Below an array there are arrays of all smaller depths. -/
theorem exists_below (ripens : image.Ripens depth ref) (less : more ≤ depth) :
    ∃ inner, image.Ripens more inner := by
  induction depth generalizing ref with
  | zero =>
      cases Nat.le_zero.mp less
      exact ⟨ref, ripens⟩
  | succ depth inductionHypothesis =>
      rcases Nat.le_succ_iff.mp less with less | rfl
      · obtain ⟨inner, -, ripensInside⟩ := ripens.exists_inner
        exact inductionHypothesis ripensInside less
      · exact ⟨ref, ripens⟩

/-- No array is deeper than there are arrays. -/
theorem le_size (ripens : image.Ripens depth ref) : depth ≤ image.heap.arrays.size := by
  have below : ∀ level : Fin depth, ∃ inner, image.Ripens (level.val + 1) inner :=
    fun level => ripens.exists_below level.isLt
  choose inner ripensInside using below
  let place : Fin depth → Fin image.heap.arrays.size :=
    fun level => ⟨(inner level).index, (ripensInside level).has⟩
  have apart : Function.Injective place := by
    intro level other same
    have index : (inner level).index = (inner other).index := congrArg Fin.val same
    have equal : inner level = inner other := congrArg Ref.mk index
    have ripensOther := ripensInside other
    rw [← equal] at ripensOther
    exact Fin.ext (Nat.succ_injective ((ripensInside level).unique ripensOther))
  simpa using Fintype.card_le_of_injective place apart

end Ripens

/-- The text of a value is found at some depth if there is one at all. -/
theorem text?_eq_some_iff {text : String} :
    image.text? value = some text ↔ ∃ depth, image.textWithin depth value = some text := by
  refine ⟨fun found => ⟨_, found⟩, fun ⟨depth, found⟩ => ?_⟩
  cases value with
  | array ref =>
      have some : ∃ depth, (image.textWithin depth (.array ref)).isSome :=
        ⟨depth, by rw [found, Option.isSome_some]⟩
      -- The first depth that is enough for the array is one beyond the depth of the array.
      obtain ⟨least, enough, first⟩ : ∃ least, (image.textWithin least (.array ref)).isSome ∧
          ∀ less < least, ¬(image.textWithin less (.array ref)).isSome :=
        ⟨Nat.find some, Nat.find_spec some, fun _ less => Nat.find_min some less⟩
      cases least with
      | zero => cases enough
      | succ least =>
          have ripens : image.Ripens least ref := ⟨first least (Nat.lt_succ_self least), enough⟩
          obtain ⟨other, foundToo⟩ := Option.isSome_iff_exists.mp enough
          have bounded := textWithin_mono (Nat.succ_le_succ ripens.le_size) foundToo
          have high := textWithin_mono (Nat.le_max_left depth (least + 1)) found
          have highToo := textWithin_mono (Nat.le_max_right depth (least + 1)) foundToo
          cases high.symm.trans highToo
          exact bounded
  | _ => cases depth <;> exact found

/-- A value without a text has none at any depth. -/
theorem text?_eq_none_iff :
    image.text? value = none ↔ ∀ depth, image.textWithin depth value = none := by
  simp only [Option.eq_none_iff_forall_ne_some, ne_eq, text?_eq_some_iff, not_exists]
  exact forall_comm

/-- Whether an array is an element of another one. -/
def Nests (image : Image) (outer inner : ArrayRef) : Prop :=
  .array inner ∈ image.arrayAt outer

/-- An array that is nested in another one takes fewer levels. -/
theorem exists_less_of_nests (nested : Relation.TransGen image.Nests outer inner)
    (found : (image.textWithin depth (.array outer)).isSome) :
    ∃ less < depth, (image.textWithin less (.array inner)).isSome := by
  induction nested with
  | single member =>
      cases depth with
      | zero => cases found
      | succ depth =>
          exact ⟨depth, Nat.lt_succ_self depth, isSome_textWithin_array.mp found _ member⟩
  | tail _ member inductionHypothesis =>
      obtain ⟨less, below, found⟩ := inductionHypothesis
      cases less with
      | zero => cases found
      | succ less =>
          exact ⟨less, Nat.lt_trans (Nat.lt_succ_self less) below,
            isSome_textWithin_array.mp found _ member⟩

/-- An array that is nested in itself has no text. -/
theorem text?_eq_none_of_nests (nested : Relation.TransGen image.Nests ref ref) :
    image.text? (.array ref) = none := by
  rw [text?_eq_none_iff]
  intro depth
  induction depth using Nat.strong_induction_on with
  | _ depth inductionHypothesis =>
      by_contra some
      obtain ⟨less, below, found⟩ :=
        exists_less_of_nests nested (Option.isSome_iff_ne_none.mpr some)
      rw [inductionHypothesis less below] at found
      cases found

end Image

end MessageMachine
