import MessageMachine.Cache.Dispatch
import MessageMachine.Memory.Shape

/-!
# Sites

The places in prepared code whose state adapts: sends with their inline caches, field accesses with
the location they used last, and control messages.  The version of the method dictionaries is kept
beside them, since the entries of inline caches are dated by it.
-/

namespace MessageMachine

/-- The state of every site, and the version of the method dictionaries. -/
structure Sites where
  calls : Arena .callSites DispatchCache
  /-- The location that each field access used last. -/
  fields : Arena .fieldSites (Option Location)
  controls : Arena .controlSites ControlState
  version : UInt32

/-- No sites yet. -/
def Sites.empty : Sites where
  calls := .empty
  fields := .empty
  controls := .empty
  version := 0

/-- The number of send sites that remember a target. -/
def Sites.filled (sites : Sites) : Nat :=
  sites.calls.cells.toList.countP fun cache => !cache.entries.isEmpty

end MessageMachine
