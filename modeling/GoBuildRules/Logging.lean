import GoBuildRules.Text.Blank

/-!
# Settings of the log

The level from which events are logged and what is shown of each. The settings come from presets or
from what a user has set.
-/

namespace GoBuildRules

/-- How important an event is. -/
inductive LogLevel where
  | trace
  | debug
  | info
  | warn
  | error
  deriving DecidableEq, Repr

/-- The level that a word names, whatever the case of its letters; `info` for any other word. -/
def LogLevel.parse (word : String) : LogLevel :=
  let word := String.ofList ((Text.trim word.toList).map Char.toLower)
  if word = "trace" then trace
  else if word = "debug" then debug
  else if word = "info" then info
  else if word = "warn" ∨ word = "warning" then warn
  else if word = "error" then error
  else info

/-- The settings of the log. -/
structure LogSettings where
  /-- The least level that is logged. -/
  level : LogLevel := .info
  /-- Whether an event is written as a JSON object. -/
  asJson : Bool := false
  /-- Whether the part of the program is shown. -/
  showTarget : Bool := true
  /-- Whether the place in the source text is shown. -/
  showLocation : Bool := false
  showThreads : Bool := false
  deriving DecidableEq, Repr

namespace LogSettings

/-- Settings for machines that collect logs: JSON with all that is known of an event. -/
def production : LogSettings :=
  { asJson := true, showLocation := true, showThreads := true }

/-- Settings for a person at work: readable lines at debug level. -/
def development : LogSettings :=
  { level := .debug }

/-- The default settings at another level. -/
def withLevel (level : LogLevel) : LogSettings :=
  { level }

/-- The settings that a user has set: a level by its word, and whether to write JSON by `true`,
which only this exact word turns on. -/
def ofSettings (level asJson : Option String) : LogSettings where
  level := (level.map LogLevel.parse).getD .info
  asJson := asJson == some "true"

end LogSettings

end GoBuildRules
