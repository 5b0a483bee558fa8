import MessageMachine.Cache.Guard

/-!
# Inline caches

The memory of a send site.  It starts out uninitialized, holds one target after the first lookup,
a chain of targets with the most recent one first after lookups for other receiver categories, and
turns megamorphic, remembering nothing, once the chain would outgrow its bound.  An entry carries
the version of the method dictionaries it was looked up in; when that version has passed, the entry
no longer answers, and its place in the chain is reused before the chain grows.
-/

namespace MessageMachine

/-- One remembered lookup. -/
structure CacheEntry where
  guard : Guard
  target : MethodRef
  version : UInt32
deriving DecidableEq, Repr

/-- The states of an inline cache, in the order in which they are passed through. -/
inductive CacheState
  | uninitialized
  | monomorphic
  | polymorphic
  | megamorphic
deriving DecidableEq, Repr

/-- The name of a state. -/
def CacheState.name : CacheState → String
  | .uninitialized => "Uninitialized"
  | .monomorphic => "Monomorphic"
  | .polymorphic => "Polymorphic"
  | .megamorphic => "Megamorphic"

/-- The memory of a send site. -/
inductive DispatchCache
  /-- Nothing was looked up yet. -/
  | uninitialized
  | monomorphic (entry : CacheEntry)
  /-- Several receiver categories, the most recent one first. -/
  | polymorphic (entries : List CacheEntry)
  /-- Too many receiver categories: every send is looked up in full. -/
  | megamorphic
deriving DecidableEq, Repr

namespace DispatchCache

instance : Inhabited DispatchCache :=
  ⟨.uninitialized⟩

/-- The state of a cache. -/
def state : DispatchCache → CacheState
  | .uninitialized => .uninitialized
  | .monomorphic _ => .monomorphic
  | .polymorphic _ => .polymorphic
  | .megamorphic => .megamorphic

/-- The entries of a cache, in the order in which they are tried. -/
def entries : DispatchCache → List CacheEntry
  | .uninitialized => []
  | .monomorphic entry => [entry]
  | .polymorphic entries => entries
  | .megamorphic => []

/-- The target remembered for a receiver category in the current version of the dictionaries. -/
def target? (cache : DispatchCache) (guard : Guard) (version : UInt32) : Option MethodRef :=
  (cache.entries.find? fun entry => entry.version == version && entry.guard == guard).map
    CacheEntry.target

/-- The place in a chain that a new entry takes over: that of the entry with the same guard, or
else that of the first entry of a passed version. -/
def reusable? (entry : CacheEntry) (chain : List CacheEntry) : Option Nat :=
  (chain.findIdx? fun other => other.guard == entry.guard).or
    (chain.findIdx? fun other => other.version != entry.version)

/-- A cache that holds at least one more entry, or none once the bound is exceeded. -/
def grow (cache : DispatchCache) (entry : CacheEntry) (bound : Nat) : DispatchCache :=
  match cache with
  | .uninitialized => .monomorphic entry
  | .monomorphic first => if bound < 2 then .megamorphic else .polymorphic [entry, first]
  | .polymorphic chain =>
      if chain.length < bound then .polymorphic (entry :: chain) else .megamorphic
  | .megamorphic => .megamorphic

/-- Remember the result of a lookup that the cache could not answer. -/
def record (cache : DispatchCache) (entry : CacheEntry) (bound : Nat) : DispatchCache :=
  match cache with
  | .monomorphic first =>
      if first.guard == entry.guard || first.version != entry.version then .monomorphic entry
      else cache.grow entry bound
  | .polymorphic chain =>
      match reusable? entry chain with
      | some place => .polymorphic (entry :: chain.eraseIdx place)
      | none => cache.grow entry bound
  | _ => cache.grow entry bound

end DispatchCache

/-- Whether a control message is still run without a send where its operands allow it. -/
inductive ControlState
  | specialized
  /-- Operands were seen that need a send: from then on the message is always sent. -/
  | generic
deriving DecidableEq, Repr

/-- The name of a control state. -/
def ControlState.name : ControlState → String
  | .specialized => "Specialized"
  | .generic => "Generic"

instance : Inhabited ControlState :=
  ⟨.specialized⟩

end MessageMachine
