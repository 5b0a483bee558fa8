import Mathlib.Data.List.InsertIdx
import Mathlib.Data.List.Nodup
import MessageMachine.Cache.Dispatch

/-!
# The chain of an inline cache

As long as a cache is not megamorphic, its chain falls into two parts: the entries of the current
version of the method dictionaries, and behind them those of passed versions.  A lookup that the
cache cannot answer puts an entry in front.  To make room, the cache gives up the entry with the
same guard if there is one, and otherwise the first entry of a passed version.  Either of these
belongs to the second part, so that no entry of the current version is ever given up; and only when
there is no second part does the chain grow, or the cache turn megamorphic.
-/

namespace MessageMachine

/-- The position of a state in the order in which states are passed through. -/
def CacheState.rank : CacheState → Nat
  | .uninitialized => 0
  | .monomorphic => 1
  | .polymorphic => 2
  | .megamorphic => 3

namespace DispatchCache

theorem rank_state_grow (cache : DispatchCache) (entry : CacheEntry) (bound : Nat) :
    cache.state.rank ≤ (cache.grow entry bound).state.rank := by
  cases cache with
  | uninitialized => exact Nat.zero_le _
  | monomorphic first =>
      simp only [grow]
      split <;> simp [state, CacheState.rank]
  | polymorphic chain =>
      simp only [grow]
      split <;> simp [state, CacheState.rank]
  | megamorphic => exact Nat.le_refl _

/-- Recording an entry never takes a cache back to an earlier state. -/
theorem rank_state_record (cache : DispatchCache) (entry : CacheEntry) (bound : Nat) :
    cache.state.rank ≤ (cache.record entry bound).state.rank := by
  cases cache with
  | uninitialized | megamorphic => exact rank_state_grow _ entry bound
  | monomorphic first =>
      simp only [record]
      split
      · exact Nat.le_refl _
      · exact rank_state_grow _ entry bound
  | polymorphic chain =>
      simp only [record]
      split
      · exact Nat.le_refl _
      · exact rank_state_grow _ entry bound

/-- A cache that is not megamorphic, with the two parts of its chain. -/
structure Charts (cache : DispatchCache) (bound : Nat) (version : UInt32)
    (fresh stale : List CacheEntry) : Prop where
  entries : cache.entries = fresh ++ stale
  current : ∀ entry ∈ fresh, entry.version = version
  passed : ∀ entry ∈ stale, entry.version ≠ version
  distinct : (cache.entries.map CacheEntry.guard).Nodup
  held : cache.state ≠ .megamorphic
  several : cache.state = .polymorphic →
    2 ≤ cache.entries.length ∧ cache.entries.length ≤ bound

namespace Charts

variable {cache : DispatchCache} {bound : Nat} {version : UInt32} {fresh stale : List CacheEntry}
  {entry : CacheEntry}

theorem uninitialized (bound : Nat) (version : UInt32) :
    DispatchCache.uninitialized.Charts bound version [] [] where
  entries := rfl
  current := fun _ member => by cases member
  passed := fun _ member => by cases member
  distinct := List.nodup_nil
  held := fun full => by cases full
  several := fun state => by cases state

theorem monomorphic (bound : Nat) (entry : CacheEntry) :
    (DispatchCache.monomorphic entry).Charts bound entry.version [entry] [] where
  entries := rfl
  current := fun _ member => by rw [List.mem_singleton.mp member]
  passed := fun _ member => by cases member
  distinct := List.nodup_singleton _
  held := fun full => by cases full
  several := fun state => by cases state

/-- The entries of the current version are those in front. -/
theorem filter_eq (charts : cache.Charts bound version fresh stale) :
    cache.entries.filter (fun entry => entry.version == version) = fresh := by
  rw [charts.entries, List.filter_append, List.filter_eq_self.mpr, List.filter_eq_nil_iff.mpr,
    List.append_nil]
  · intro entry member
    simpa using charts.passed entry member
  · intro entry member
    simpa using charts.current entry member

/-- A cache answers for the guards of its fresh entries. -/
theorem isSome_target?_iff (charts : cache.Charts bound version fresh stale) (guard : Guard) :
    (cache.target? guard version).isSome ↔ guard ∈ fresh.map CacheEntry.guard := by
  rw [target?, Option.isSome_map, List.find?_isSome, charts.entries]
  simp only [Bool.and_eq_true, beq_iff_eq, List.mem_append, List.mem_map]
  constructor
  · rintro ⟨entry, inFresh | inStale, same, rfl⟩
    · exact ⟨entry, inFresh, rfl⟩
    · exact absurd same (charts.passed entry inStale)
  · rintro ⟨entry, inFresh, rfl⟩
    exact ⟨entry, Or.inl inFresh, charts.current entry inFresh, rfl⟩

/-- With a new version of the dictionaries, all entries are of a passed version. -/
theorem renew (charts : cache.Charts bound version fresh stale) {next : UInt32}
    (older : ∀ entry ∈ cache.entries, entry.version ≠ next) :
    cache.Charts bound next [] (fresh ++ stale) where
  entries := charts.entries
  current := fun _ member => by cases member
  passed := fun entry member => older entry (charts.entries ▸ member)
  distinct := charts.distinct
  held := charts.held
  several := charts.several

end Charts

/-- Entries of the current version with other guards are never given up. -/
theorem reusable?_append {entry : CacheEntry} {fresh : List CacheEntry}
    (current : ∀ other ∈ fresh, other.version = entry.version)
    (unseen : entry.guard ∉ fresh.map CacheEntry.guard) (stale : List CacheEntry) :
    reusable? entry (fresh ++ stale) = (reusable? entry stale).map (· + fresh.length) := by
  have noGuard : fresh.findIdx? (fun other => other.guard == entry.guard) = none := by
    rw [List.findIdx?_eq_none_iff]
    intro other member
    rw [beq_eq_false_iff_ne]
    intro same
    exact unseen (same ▸ List.mem_map_of_mem member)
  have noVersion : fresh.findIdx? (fun other => other.version != entry.version) = none := by
    rw [List.findIdx?_eq_none_iff]
    intro other member
    simpa using current other member
  simp only [reusable?, List.findIdx?_append, noGuard, noVersion, Option.none_or, Option.map_or]

/-- If there are entries of passed versions, then one of them is given up, and no other entry with
the guard in question is left. -/
theorem exists_reusable? {entry : CacheEntry} {stale : List CacheEntry} (nonempty : stale ≠ [])
    (passed : ∀ other ∈ stale, other.version ≠ entry.version)
    (distinct : (stale.map CacheEntry.guard).Nodup) :
    ∃ place, reusable? entry stale = some place ∧ place < stale.length ∧
      ∀ other ∈ stale.eraseIdx place, other.guard ≠ entry.guard := by
  cases found : stale.findIdx? (fun other => other.guard == entry.guard) with
  | some place =>
      obtain ⟨inside, same, -⟩ := List.findIdx?_eq_some_iff_getElem.mp found
      refine ⟨place, by simp only [reusable?, found, Option.some_or], inside, ?_⟩
      intro other member sameToo
      obtain ⟨index, within, elsewhere, rfl⟩ := List.mem_eraseIdx_iff_getElem.mp member
      refine elsewhere ((List.getElem?_inj (by simpa using within) distinct).mp ?_)
      rw [List.getElem?_map, List.getElem?_map, List.getElem?_eq_getElem within,
        List.getElem?_eq_getElem inside, Option.map_some, Option.map_some, sameToo,
        beq_iff_eq.mp same]
  | none =>
      have absent := List.findIdx?_eq_none_iff.mp found
      obtain ⟨first, rest, rfl⟩ := List.exists_cons_of_ne_nil nonempty
      refine ⟨0, ?_, Nat.zero_lt_succ _, fun other member => ?_⟩
      · have old : (first.version != entry.version) = true := by
          simpa using passed first List.mem_cons_self
        simp only [reusable?, found, Option.none_or, List.findIdx?_cons, old, if_true]
      · exact beq_eq_false_iff_ne.mp (absent other (List.mem_of_mem_eraseIdx member))

namespace Charts

variable {cache : DispatchCache} {bound : Nat} {fresh stale : List CacheEntry}
  {entry : CacheEntry}

/-- Putting an entry with a new guard in front, in place of entries of passed versions. -/
theorem cons {chain : List CacheEntry}
    (charts : cache.Charts bound entry.version fresh stale) {kept : List CacheEntry}
    (entries : chain = entry :: (fresh ++ kept)) (subset : kept.Sublist stale)
    (unseen : entry.guard ∉ fresh.map CacheEntry.guard)
    (given : ∀ other ∈ kept, other.guard ≠ entry.guard) (several : 2 ≤ chain.length)
    (within : chain.length ≤ bound) :
    (DispatchCache.polymorphic chain).Charts bound entry.version (entry :: fresh) kept where
  entries := entries
  current := fun other member => by
    rcases List.mem_cons.mp member with rfl | old
    · rfl
    · exact charts.current other old
  passed := fun other member => charts.passed other (subset.subset member)
  distinct := by
    have older : ((fresh ++ kept).map CacheEntry.guard).Nodup := by
      refine List.Nodup.sublist (List.Sublist.map _ ?_) charts.distinct
      rw [charts.entries]
      exact List.Sublist.append_left subset fresh
    rw [show (DispatchCache.polymorphic chain).entries = chain from rfl, entries, List.map_cons,
      List.nodup_cons]
    refine ⟨?_, older⟩
    intro member
    rw [List.map_append, List.mem_append] at member
    rcases member with old | new
    · exact unseen old
    · obtain ⟨other, isKept, same⟩ := List.mem_map.mp new
      exact given other isKept same
  held := fun full => by cases full
  several := fun _ => ⟨several, within⟩

/-- A chain without entries of passed versions gets longer, if there is room for one more entry. -/
theorem record_fresh
    (charts : (DispatchCache.polymorphic (fresh ++ [])).Charts bound entry.version fresh [])
    (unseen : entry.guard ∉ fresh.map CacheEntry.guard) :
    (bound < fresh.length + 1 ∧
        (DispatchCache.polymorphic (fresh ++ [])).record entry bound = .megamorphic) ∨
      fresh.length + 1 ≤ bound ∧ ∃ kept,
        ((DispatchCache.polymorphic (fresh ++ [])).record entry bound).Charts bound entry.version
          (entry :: fresh) kept := by
  have several : 2 ≤ (fresh ++ []).length := (charts.several rfl).1
  have nothing : reusable? entry (fresh ++ []) = none := reusable?_append charts.current unseen []
  simp only [DispatchCache.record, nothing, grow]
  rw [List.append_nil] at several ⊢
  by_cases room : fresh.length < bound
  · rw [if_pos room]
    exact Or.inr ⟨room, [], charts.cons (by rw [List.append_nil]) (List.Sublist.refl _) unseen
      (fun _ member => by cases member) (Nat.le_succ_of_le several) room⟩
  · rw [if_neg room]
    exact Or.inl ⟨by omega, rfl⟩

/-- In a chain with entries of passed versions, the new entry takes the place of one of them. -/
theorem record_stale
    (charts : (DispatchCache.polymorphic (fresh ++ stale)).Charts bound entry.version fresh stale)
    (unseen : entry.guard ∉ fresh.map CacheEntry.guard) (nonempty : stale ≠ []) :
    fresh.length + 1 ≤ bound ∧ ∃ kept,
      ((DispatchCache.polymorphic (fresh ++ stale)).record entry bound).Charts bound entry.version
        (entry :: fresh) kept := by
  have chain : 2 ≤ (fresh ++ stale).length ∧ (fresh ++ stale).length ≤ bound := charts.several rfl
  rw [List.length_append] at chain
  have distinct : (stale.map CacheEntry.guard).Nodup :=
    List.Nodup.sublist (List.Sublist.map _ (List.sublist_append_right fresh stale)) charts.distinct
  obtain ⟨place, reused, inside, given⟩ := exists_reusable? nonempty charts.passed distinct
  have shorter := List.length_eraseIdx_of_lt inside
  have remaining : (fresh ++ stale).eraseIdx (place + fresh.length) =
      fresh ++ stale.eraseIdx place := by
    rw [List.eraseIdx_append_of_length_le (Nat.le_add_left _ _), Nat.add_sub_cancel]
  simp only [DispatchCache.record, reusable?_append charts.current unseen stale, reused,
    Option.map_some, remaining]
  refine ⟨by omega, stale.eraseIdx place, charts.cons rfl (List.eraseIdx_sublist stale place) unseen
    given ?_ ?_⟩
  · rw [List.length_cons, List.length_append, shorter]
    omega
  · rw [List.length_cons, List.length_append, shorter]
    omega

/-- Recording an entry for a category that the cache could not answer for.  Either the bound is
exceeded and the cache turns megamorphic, or the entry joins the fresh ones. -/
theorem record (charts : cache.Charts bound entry.version fresh stale) (positive : 1 ≤ bound)
    (unseen : entry.guard ∉ fresh.map CacheEntry.guard) :
    (bound < fresh.length + 1 ∧ cache.record entry bound = .megamorphic) ∨
      fresh.length + 1 ≤ bound ∧ ∃ kept,
        (cache.record entry bound).Charts bound entry.version (entry :: fresh) kept := by
  have entries := charts.entries
  cases cache with
  | uninitialized =>
      obtain ⟨rfl, rfl⟩ := List.append_eq_nil_iff.mp entries.symm
      exact Or.inr ⟨positive, [], .monomorphic bound entry⟩
  | monomorphic first =>
      rcases List.append_eq_singleton_iff.mp entries.symm with ⟨rfl, rfl⟩ | ⟨rfl, rfl⟩
      · -- The only entry is of a passed version, and gives way.
        have old := charts.passed first (List.mem_singleton_self first)
        refine Or.inr ⟨positive, [], ?_⟩
        simp only [DispatchCache.record, bne_iff_ne.mpr old, Bool.or_true, if_true]
        exact .monomorphic bound entry
      · have new := charts.current first (List.mem_singleton_self first)
        have other : first.guard ≠ entry.guard := fun same =>
          unseen (by rw [List.map_singleton, same]; exact List.mem_singleton_self _)
        have grown : (DispatchCache.monomorphic first).record entry bound =
            (DispatchCache.monomorphic first).grow entry bound := by
          simp [DispatchCache.record, new, other]
        rw [grown, grow]
        by_cases single : bound < 2
        · rw [if_pos single]
          exact Or.inl ⟨single, rfl⟩
        · rw [if_neg single]
          have room : 2 ≤ bound := Nat.le_of_not_lt single
          exact Or.inr ⟨room, [], charts.cons rfl (List.Sublist.refl _) unseen
            (fun _ member => by cases member) (Nat.le_refl 2) room⟩
  | polymorphic chain =>
      change chain = fresh ++ stale at entries
      subst entries
      by_cases none : stale = []
      · subst none
        exact charts.record_fresh unseen
      · exact Or.inr (charts.record_stale unseen none)
  | megamorphic => exact absurd rfl charts.held

end Charts

end DispatchCache

end MessageMachine
