import MessageMachine.Number.Integer

/-!
# Settings

The two adjustable properties of a machine.  They decide how it adapts, never what a program
answers.
-/

namespace MessageMachine

/-- The adjustable properties of a machine. -/
structure Settings where
  /-- The largest number of targets that a send site remembers. -/
  cacheSize : Nat
  /-- Whether control messages are run without a send where possible. -/
  specializeControl : Bool
deriving DecidableEq, Repr

namespace Settings

/-- The settings used unless something else is asked for. -/
def standard : Settings where
  cacheSize := 6
  specializeControl := true

/-- Ask for a cache size.  At least one target is always remembered. -/
def withCacheSize (settings : Settings) (size : Nat) : Settings :=
  { settings with cacheSize := max size 1 }

/-- Ask for control messages to be specialized or not. -/
def withControl (settings : Settings) (enabled : Bool) : Settings :=
  { settings with specializeControl := enabled }

/-- A requested cache size that could not be read. -/
structure Complaint where
  text : String
  error : Integer.ReadingError

/-- The settings asked for by two texts of the environment: a cache size, and a mark that switches
specialization off whatever it says.  A cache size that cannot be read is left alone and complained
about. -/
def ofEnvironment (size noSpecialization : Option String) : Settings × Option Complaint :=
  let settings := standard.withControl noSpecialization.isNone
  match size with
  | none => (settings, none)
  | some text =>
      match Integer.readWord text with
      | .ok number => (settings.withCacheSize number, none)
      | .error error => (settings, some { text, error })

end Settings

end MessageMachine
