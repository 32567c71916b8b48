import ClientPatch.Text

/-!
# Log lines

What happens during a run is told as events. An event has a level, the part of the program that
tells it, a message and named values; it becomes one line when the filter lets it through.
-/

namespace ClientPatch

/-- How important an event is, the most important first. -/
inductive LogLevel where
  /-- Something failed. -/
  | error
  /-- Something looks wrong. -/
  | warn
  /-- Something was done. -/
  | info
  /-- A detail of how it was done. -/
  | debug
  /-- The least detail. -/
  | trace
  deriving DecidableEq, Repr

namespace LogLevel

/-- The number of a level, from one. -/
def rank : LogLevel → Nat
  | .error => 1
  | .warn => 2
  | .info => 3
  | .debug => 4
  | .trace => 5

/-- The level as a line begins with it, five characters wide. -/
def label : LogLevel → Text
  | .error => "ERROR".toList
  | .warn => " WARN".toList
  | .info => " INFO".toList
  | .debug => "DEBUG".toList
  | .trace => "TRACE".toList

end LogLevel

/-- Something that happened. -/
structure LogEvent where
  /-- How important it is. -/
  level : LogLevel
  /-- The part of the program that tells it. -/
  origin : Text
  /-- What happened. -/
  message : Text
  /-- What is known about it, by name. -/
  fields : List (Text × Text)
  deriving DecidableEq, Repr

/-- The line of an event, with its line end. -/
def LogEvent.line (e : LogEvent) : Text :=
  e.level.label ++ ' ' :: e.message ++
    e.fields.flatMap (fun f => ' ' :: f.1 ++ '=' :: f.2) ++ ['\n']

/-- The origin of the events of the command line. -/
def commandOrigin : Text := "zod_client_patcher".toList

/-- The origin of the events of a patch. -/
def patchOrigin : Text := "zod_client_patcher::patcher".toList

end ClientPatch
