/-!
# Dictionaries

Finite maps from names that remember the order in which names first appeared.  Replacing the value
of a name keeps its place; erasing a name keeps the order of the others.
-/

namespace MessageMachine

/-- An insertion-ordered map from names. -/
structure Dictionary (Entry : Type) where
  entries : List (String × Entry)

namespace Dictionary

variable {Entry : Type}

/-- The dictionary without entries. -/
def empty : Dictionary Entry where
  entries := []

instance : Inhabited (Dictionary Entry) :=
  ⟨empty⟩

/-- The first entry of a name in a list of entries. -/
def lookup (name : String) : List (String × Entry) → Option Entry
  | [] => none
  | (other, entry) :: rest => if other = name then some entry else lookup name rest

/-- Replace the entry of a name where it stands, or add it at the end. -/
def place (name : String) (entry : Entry) : List (String × Entry) → List (String × Entry)
  | [] => [(name, entry)]
  | (other, previous) :: rest =>
      if other = name then (name, entry) :: rest
      else (other, previous) :: place name entry rest

/-- The entry of a name. -/
def find? (dictionary : Dictionary Entry) (name : String) : Option Entry :=
  lookup name dictionary.entries

/-- Whether a name has an entry. -/
def contains (dictionary : Dictionary Entry) (name : String) : Bool :=
  (dictionary.find? name).isSome

/-- Give a name an entry. -/
def insert (dictionary : Dictionary Entry) (name : String) (entry : Entry) :
    Dictionary Entry where
  entries := place name entry dictionary.entries

/-- Drop the entry of a name. -/
def erase (dictionary : Dictionary Entry) (name : String) : Dictionary Entry where
  entries := dictionary.entries.filter fun entry => entry.1 ≠ name

/-- The names, in order of first appearance. -/
def keys (dictionary : Dictionary Entry) : List String :=
  dictionary.entries.map Prod.fst

/-- The entries, in order of the first appearance of their names. -/
def values (dictionary : Dictionary Entry) : List Entry :=
  dictionary.entries.map Prod.snd

/-- The number of entries. -/
def size (dictionary : Dictionary Entry) : Nat :=
  dictionary.entries.length

/-- A name finds the entry it was last given. -/
theorem find?_insert_same (dictionary : Dictionary Entry) (name : String) (entry : Entry) :
    (dictionary.insert name entry).find? name = some entry := by
  simp only [find?, insert]
  induction dictionary.entries with
  | nil => simp [place, lookup]
  | cons head tail inductionHypothesis =>
      simp only [place]
      split
      · simp [lookup]
      · next different => simp [lookup, different, inductionHypothesis]

/-- Giving one name an entry does not change what another name finds. -/
theorem find?_insert_of_ne (dictionary : Dictionary Entry) (name other : String) (entry : Entry)
    (different : other ≠ name) :
    (dictionary.insert name entry).find? other = dictionary.find? other := by
  simp only [find?, insert]
  induction dictionary.entries with
  | nil => simp [place, lookup, Ne.symm different]
  | cons head tail inductionHypothesis =>
      simp only [place]
      split
      · next same => simp [lookup, same, Ne.symm different]
      · simp only [lookup, inductionHypothesis]

/-- The names with an entry are the keys. -/
theorem contains_iff (dictionary : Dictionary Entry) (name : String) :
    dictionary.contains name = true ↔ name ∈ dictionary.keys := by
  simp only [contains, find?, keys]
  induction dictionary.entries with
  | nil => simp [lookup]
  | cons head tail inductionHypothesis =>
      by_cases same : head.1 = name
      · simp [lookup, same]
      · simp [lookup, same, inductionHypothesis, Ne.symm same]

/-- A new name comes last, and a known name keeps its place. -/
theorem keys_insert (dictionary : Dictionary Entry) (name : String) (entry : Entry) :
    (dictionary.insert name entry).keys =
      if name ∈ dictionary.keys then dictionary.keys else dictionary.keys ++ [name] := by
  obtain ⟨entries⟩ := dictionary
  change (place name entry entries).map Prod.fst = if name ∈ entries.map Prod.fst then
    entries.map Prod.fst else entries.map Prod.fst ++ [name]
  induction entries with
  | nil => simp [place]
  | cons head tail inductionHypothesis =>
      by_cases same : head.1 = name
      · simp [place, same]
      · simp only [place, if_neg same, List.map_cons, inductionHypothesis]
        by_cases known : name ∈ tail.map Prod.fst
        · rw [if_pos known, if_pos (List.mem_cons_of_mem _ known)]
        · rw [if_neg known, if_neg (by simpa [Ne.symm same] using known), List.cons_append]

/-- Erasing a name keeps the order of the others. -/
theorem keys_erase (dictionary : Dictionary Entry) (name : String) :
    (dictionary.erase name).keys = dictionary.keys.filter fun key => key ≠ name := by
  simp only [keys, erase, List.filter_map]
  rfl

/-- An erased name finds nothing. -/
theorem find?_erase_same (dictionary : Dictionary Entry) (name : String) :
    (dictionary.erase name).find? name = none := by
  simp only [find?, erase]
  induction dictionary.entries with
  | nil => rfl
  | cons head tail inductionHypothesis =>
      by_cases same : head.1 = name
      · simpa [same] using inductionHypothesis
      · simpa [same, lookup] using inductionHypothesis

/-- Erasing one name does not change what another name finds. -/
theorem find?_erase_of_ne (dictionary : Dictionary Entry) (name other : String)
    (different : other ≠ name) :
    (dictionary.erase name).find? other = dictionary.find? other := by
  simp only [find?, erase]
  induction dictionary.entries with
  | nil => rfl
  | cons head tail inductionHypothesis =>
      by_cases same : head.1 = name
      · simpa [same, lookup, Ne.symm different] using inductionHypothesis
      · by_cases found : head.1 = other
        · simp [lookup, found, different]
        · simpa [same, lookup, found] using inductionHypothesis

end Dictionary

end MessageMachine
