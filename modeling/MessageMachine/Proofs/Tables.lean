import MessageMachine.Memory.Arena
import MessageMachine.Memory.Dictionary

/-!
# Laws of arenas and dictionaries

What a total lookup finds after an arena was changed, and which entries a changed dictionary can
hold.  An arena answers the default cell for a reference that was never allocated, so that every
law here is an equation without a condition on the reference looked up.
-/

namespace MessageMachine

/-- The numbers of the cells that are added in two steps. -/
theorem range'_span {start between stop : Nat} (earlier : start ≤ between)
    (later : between ≤ stop) :
    List.range' start (between - start) ++ List.range' between (stop - between) =
      List.range' start (stop - start) := by
  have split : stop - start = (between - start) + (stop - between) := by omega
  have meets : start + 1 * (between - start) = between := by omega
  rw [split, ← List.range'_append, meets]

namespace Arena

variable {region : Region} {Cell : Type}

/-- Whether a reference was allocated. -/
def Has (arena : Arena region Cell) (ref : Ref region) : Prop :=
  ref.index < arena.size

instance (arena : Arena region Cell) (ref : Ref region) : Decidable (arena.Has ref) :=
  inferInstanceAs (Decidable (ref.index < arena.size))

@[simp] theorem has_push (arena : Arena region Cell) (cell : Cell) (ref : Ref region) :
    (arena.push cell).Has ref ↔ arena.Has ref ∨ ref = arena.next := by
  obtain ⟨index⟩ := ref
  simp only [Has, size_push, next, Ref.mk.injEq]
  omega

@[simp] theorem has_modify (arena : Arena region Cell) (changed ref : Ref region)
    (change : Cell → Cell) : (arena.modify changed change).Has ref ↔ arena.Has ref := by
  simp only [Has, size_modify]

@[simp] theorem has_set (arena : Arena region Cell) (changed ref : Ref region) (cell : Cell) :
    (arena.set changed cell).Has ref ↔ arena.Has ref := by
  simp only [Has, size_set]

/-- The next reference is not allocated yet. -/
theorem not_has_next (arena : Arena region Cell) : ¬ arena.Has arena.next :=
  Nat.lt_irrefl _

/-- In an arena without cells nothing is allocated. -/
theorem not_has_of_size_eq_zero {arena : Arena region Cell} (none : arena.size = 0)
    (ref : Ref region) : ¬ arena.Has ref := by
  rw [Has, none]
  exact Nat.not_lt_zero ref.index

/-- An allocated reference is not the next one. -/
theorem Has.ne_next {arena : Arena region Cell} {ref : Ref region} (old : arena.Has ref) :
    ref ≠ arena.next := by
  intro same
  exact arena.not_has_next (same ▸ old)

/-- Arenas without cells are the same. -/
theorem ext_empty {arena other : Arena region Cell} (none : arena.size = 0)
    (noneToo : other.size = 0) : arena = other := by
  obtain ⟨cells⟩ := arena
  obtain ⟨cellsToo⟩ := other
  have first : cells = #[] := Array.eq_empty_of_size_eq_zero none
  have second : cellsToo = #[] := Array.eq_empty_of_size_eq_zero noneToo
  rw [first, second]

variable [Inhabited Cell]

/-- A reference that was never allocated finds the default cell. -/
theorem get_of_not_has {arena : Arena region Cell} {ref : Ref region} (absent : ¬ arena.Has ref) :
    arena.get ref = default := by
  simp only [Has, size, Nat.not_lt] at absent
  simp [get, Array.getD_eq_getD_getElem?, absent]

/-- In an arena without cells every reference finds the default cell. -/
theorem get_of_size_eq_zero {arena : Arena region Cell} (none : arena.size = 0)
    (ref : Ref region) : arena.get ref = default :=
  get_of_not_has (not_has_of_size_eq_zero none ref)

theorem get_push (arena : Arena region Cell) (cell : Cell) (ref : Ref region) :
    (arena.push cell).get ref = if ref = arena.next then cell else arena.get ref := by
  obtain ⟨index⟩ := ref
  simp only [get, push, next, size, Ref.mk.injEq, Array.getD_eq_getD_getElem?,
    Array.getElem?_push]
  split <;> rfl

/-- Adding a cell leaves what an older reference finds alone. -/
theorem get_push_of_has {arena : Arena region Cell} {ref : Ref region} (cell : Cell)
    (old : arena.Has ref) : (arena.push cell).get ref = arena.get ref := by
  rw [get_push, if_neg old.ne_next]

theorem get_push_next (arena : Arena region Cell) (cell : Cell) :
    (arena.push cell).get arena.next = cell := by
  rw [get_push, if_pos rfl]

theorem get_modify (arena : Arena region Cell) (changed ref : Ref region)
    (change : Cell → Cell) :
    (arena.modify changed change).get ref =
      if ref = changed ∧ arena.Has ref then change (arena.get ref) else arena.get ref := by
  obtain ⟨index⟩ := ref
  obtain ⟨other⟩ := changed
  simp only [get, modify, Has, size, Ref.mk.injEq, Array.getD_eq_getD_getElem?,
    Array.getElem?_modify]
  by_cases same : other = index
  · subst same
    by_cases old : other < arena.cells.size
    · simp [old]
    · simp [old]
  · simp [same, Ne.symm same]

theorem get_set (arena : Arena region Cell) (changed ref : Ref region) (cell : Cell) :
    (arena.set changed cell).get ref =
      if ref = changed ∧ arena.Has ref then cell else arena.get ref := by
  obtain ⟨index⟩ := ref
  obtain ⟨other⟩ := changed
  simp only [get, set, Has, size, Ref.mk.injEq, Array.getD_eq_getD_getElem?,
    Array.getElem?_setIfInBounds]
  by_cases same : other = index
  · subst same
    by_cases old : other < arena.cells.size
    · simp [old]
    · simp [old]
  · simp [same, Ne.symm same]

/-- Arenas in which every reference finds the same are the same. -/
theorem ext_get {arena other : Arena region Cell} (count : arena.size = other.size)
    (same : ∀ ref, arena.get ref = other.get ref) : arena = other := by
  obtain ⟨cells⟩ := arena
  obtain ⟨cellsToo⟩ := other
  refine congrArg Arena.mk (Array.ext count fun index inside insideToo => ?_)
  have found := same ⟨index⟩
  simpa only [get, Array.getD_eq_getD_getElem?, Array.getElem?_eq_getElem inside,
    Array.getElem?_eq_getElem insideToo, Option.getD_some] using found

end Arena

namespace Dictionary

variable {Entry : Type}

/-- What a name finds is one of the entries. -/
theorem mem_values_of_find? {dictionary : Dictionary Entry} {name : String} {entry : Entry}
    (found : dictionary.find? name = some entry) : entry ∈ dictionary.values := by
  obtain ⟨entries⟩ := dictionary
  change entry ∈ entries.map Prod.snd
  change lookup name entries = some entry at found
  induction entries with
  | nil => cases found
  | cons head tail inductionHypothesis =>
      simp only [lookup] at found
      split at found
      · cases found
        exact List.mem_cons_self
      · exact List.mem_cons_of_mem _ (inductionHypothesis found)

/-- What a dictionary holds after a name was given an entry is that entry or was there before. -/
theorem mem_entries_insert {dictionary : Dictionary Entry} {name : String} {entry : Entry}
    {pair : String × Entry} (member : pair ∈ (dictionary.insert name entry).entries) :
    pair = (name, entry) ∨ pair ∈ dictionary.entries := by
  obtain ⟨entries⟩ := dictionary
  change pair = (name, entry) ∨ pair ∈ entries
  change pair ∈ place name entry entries at member
  induction entries with
  | nil => exact Or.inl (List.mem_singleton.mp member)
  | cons head tail inductionHypothesis =>
      simp only [place] at member
      split at member
      · rcases List.mem_cons.mp member with new | old
        · exact Or.inl new
        · exact Or.inr (List.mem_cons_of_mem _ old)
      · rcases List.mem_cons.mp member with first | later
        · exact Or.inr (first ▸ List.mem_cons_self)
        · exact (inductionHypothesis later).imp id (List.mem_cons_of_mem _)

/-- Giving a name an entry brings in no other entry. -/
theorem mem_values_insert {dictionary : Dictionary Entry} {name : String} {entry other : Entry}
    (member : other ∈ (dictionary.insert name entry).values) :
    other = entry ∨ other ∈ dictionary.values := by
  obtain ⟨pair, found, rfl⟩ := List.mem_map.mp member
  rcases mem_entries_insert found with rfl | old
  · exact Or.inl rfl
  · exact Or.inr (List.mem_map.mpr ⟨pair, old, rfl⟩)

/-- Dropping a name brings in no entry. -/
theorem mem_values_erase {dictionary : Dictionary Entry} {name : String} {other : Entry}
    (member : other ∈ (dictionary.erase name).values) : other ∈ dictionary.values := by
  obtain ⟨entry, kept, same⟩ := List.mem_map.mp member
  exact List.mem_map.mpr ⟨entry, (List.mem_filter.mp kept).1, same⟩

end Dictionary

end MessageMachine
