import Aspects.Journal
import Aspects.Text.Blank

/-!
# Logging settings

How much is logged and in which form. Level and format are kept as the texts that were
given; whether they name a level and a format is found out when logging begins, the
level first. A filter that cannot be understood is no obstacle: the level takes its
place.
-/

namespace Aspects.Logging

/-- The form of log lines. -/
inductive Format where
  | compact
  | full
  | pretty
  deriving DecidableEq

/-- The name under which a format is shown. -/
def Format.name : Format → String
  | compact => "Compact"
  | full => "Full"
  | pretty => "Pretty"

/-- A setting that names nothing known. -/
inductive Refusal where
  | level (text : String)
  | format (text : String)
  deriving DecidableEq

/-- The text that tells the refusal. -/
def Refusal.message : Refusal → String
  | level text => "Invalid log level: " ++ text
  | format text => "Invalid log format: " ++ text

/-- The level that a text names, without regard to case. -/
def parseLevel (text : String) : Except Refusal Level :=
  match Text.lower text with
  | "trace" => .ok .trace
  | "debug" => .ok .debug
  | "info" => .ok .info
  | "warn" => .ok .warn
  | "warning" => .ok .warn
  | "error" => .ok .error
  | _ => .error (.level text)

/-- The name under which a level is shown among settings. -/
def levelName : Level → String
  | .error => "error"
  | .warn => "warn"
  | .info => "info"
  | .debug => "debug"
  | .trace => "trace"

/-- The format that a text names, without regard to case. -/
def parseFormat (text : String) : Except Refusal Format :=
  match Text.lower text with
  | "compact" => .ok .compact
  | "full" => .ok .full
  | "pretty" => .ok .pretty
  | _ => .error (.format text)

/-- The settings of logging. -/
structure Settings where
  level : String := "info"
  format : String := "compact"
  showTarget : Bool := false
  showThreadIds : Bool := false
  filter : Option String := none
  deriving DecidableEq, Inhabited

/-- The level and the format to begin logging with. -/
def Settings.check (s : Settings) : Except Refusal (Level × Format) := do
  return (← parseLevel s.level, ← parseFormat s.format)

end Aspects.Logging
