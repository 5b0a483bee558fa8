import MessageMachine.Cache.Dispatch
import MessageMachine.Language.Source
import MessageMachine.Machine.Settings
import MessageMachine.Memory.Shape

/-!
# The journal

A machine that is listened to keeps a journal of how it adapts and of what it finds noteworthy.
Events are kept as data; their level and wording are fixed here.  An array that is nested in itself
has no text; it is up to the listener what becomes of an event about it.
-/

namespace MessageMachine

/-- Noteworthy events. -/
inductive Event
  | initialized (classes : Nat) (settings : Settings)
  | classRedefined (name : String)
  | classDefined (name : String) (fields methods : Nat)
  | operationMissing (title : String)
  | methodInstalled (className : String) (selector : Selector) (sites : Nat)
  | cacheMoved (selector : Selector) (site : CallSiteRef) (before after : CacheState)
      (guard : Guard)
  | cacheFilled (selector : Selector) (site : CallSiteRef) (targets : Nat)
  | controlGeneralized (selector : Selector) (site : ControlSiteRef) (receiver : Option String)
  | fieldGeneralized (className : String) (index : Nat) (field : String) (storage : Storage)
      (version : Nat)
  | instanceMigrated (className : String) (version : Nat)
  | typesRejected (operation : String)
  | notUnderstood (receiver : Option String) (selector : Selector)
  | returnEscaped (method : String) (span : Span)
  | settingIgnored (complaint : Settings.Complaint)

/-- How much an event matters. -/
inductive Level
  | trace
  | debug
  | warning
deriving DecidableEq, Repr

/-- The name of a level. -/
def Level.name : Level → String
  | .trace => "TRACE"
  | .debug => "DEBUG"
  | .warning => "WARN"

namespace Event

/-- How much an event matters. -/
def level : Event → Level
  | .classRedefined _ => .warning
  | .operationMissing _ => .warning
  | .settingIgnored _ => .warning
  | .cacheFilled _ _ _ => .trace
  | .instanceMigrated _ _ => .trace
  | .typesRejected _ => .trace
  | _ => .debug

/-- The wording of an event. -/
def text : Event → String
  | .initialized classes settings =>
      "universe initialized (" ++ toString classes ++ " classes, inline cache size " ++
        toString settings.cacheSize ++ ", control-flow specialization " ++
        (if settings.specializeControl then "on" else "off") ++ ")"
  | .classRedefined name =>
      "class '" ++ name ++ "' redefined, the global now refers to the new one"
  | .classDefined name fields methods =>
      "defined class '" ++ name ++ "' (" ++ toString fields ++ " fields, " ++ toString methods ++
        " methods)"
  | .operationMissing title => "no implementation for primitive '" ++ title ++ "'"
  | .methodInstalled className selector sites =>
      "installed '" ++ className ++ ">>#" ++ selector ++ "', " ++ toString sites ++
        " call sites now revalidate their targets"
  | .cacheMoved selector site before after guard =>
      "#" ++ selector ++ ": call site " ++ toString site.index ++ " went from " ++ before.name ++
        " to " ++ after.name ++ " (receiver category " ++
        guard.text (fun ref => "ClassId(" ++ toString ref.index ++ ")") ++ ")"
  | .cacheFilled selector site targets =>
      "#" ++ selector ++ ": call site " ++ toString site.index ++ " now caches " ++
        toString targets ++ " targets"
  | .controlGeneralized selector site receiver =>
      "#" ++ selector ++ ": control site " ++ toString site.index ++
        " despecialized (receiver " ++ receiver.getD "" ++ ")"
  | .fieldGeneralized className index field storage version =>
      "'" ++ className ++ "': field #" ++ toString index ++ " ('" ++ field ++
        "') is now stored as " ++ storage.name ++ " (shape version " ++ toString version ++ ")"
  | .instanceMigrated className version =>
      "migrating an instance of '" ++ className ++ "' to shape version " ++ toString version
  | .typesRejected operation =>
      "'" ++ operation ++ "': wrong argument types, sending #doesNotUnderstand:arguments:"
  | .notUnderstood receiver selector =>
      "'" ++ receiver.getD "" ++ "' does not understand #" ++ selector
  | .returnEscaped method span =>
      "non-local return from '" ++ method ++ "' escaped (at " ++ span.text ++ ")"
  | .settingIgnored complaint =>
      "ignoring SOM_INLINE_CACHE_SIZE='" ++ complaint.text ++ "': " ++ complaint.error.message

/-- The line that an event takes in the journal. -/
def line (event : Event) : String :=
  event.level.name ++ ": " ++ event.text

end Event

/-- The events noted so far, if anybody listens. -/
structure Journal where
  listening : Bool
  events : Array Event

end MessageMachine
