import Aspects.Object
import Aspects.Text.Quoted

/-!
# The journal

What happens during a run is written down in order: the messages of the engine, the
lines of user code, and the steps in the life of targets and configurations that leave
no message behind. A message has a level, a text and fields, and is shown on one line.
-/

namespace Aspects

/-- How much a message matters. -/
inductive Level where
  | error
  | warn
  | info
  | debug
  | trace
  deriving DecidableEq

namespace Level

/-- The place of a level, the weightiest first. -/
def rank : Level → Nat
  | error => 0
  | warn => 1
  | info => 2
  | debug => 3
  | trace => 4

/-- The name of the level in a message. -/
def name : Level → String
  | error => "ERROR"
  | warn => "WARN"
  | info => "INFO"
  | debug => "DEBUG"
  | trace => "TRACE"

end Level

/-- A message of the engine. The texts of its fields are ready to be shown. -/
structure Event where
  level : Level
  message : String
  fields : List (String × String) := []

/-- The message on one line. -/
def Event.display (e : Event) : String :=
  let fields := if e.fields.isEmpty then "" else
    " \x7b" ++ "; ".intercalate (e.fields.map fun (k, v) => k ++ "=" ++ v) ++ "\x7d"
  e.level.name ++ " " ++ e.message ++ fields

/-- The number of a target source. -/
structure SourceId where
  index : Nat
  deriving DecidableEq, Inhabited

/-- Something that happened. -/
inductive Entry where
  /-- A message of the engine. -/
  | event (e : Event)
  /-- A line of user code. -/
  | note (line : String)
  /-- A call got its target from a source that wants it back. -/
  | acquired (source : SourceId) (target : Object)
  /-- A call gave its target back. -/
  | released (source : SourceId) (target : Object)
  /-- A listener heard that a configuration became active. -/
  | activated (config : ConfigId) (listener : Routine)
  /-- A listener heard that a configuration changed. -/
  | changed (config : ConfigId) (listener : Routine)
  /-- A factory replaced the flags of its configuration. -/
  | reflagged (config : ConfigId)
  /-- The target of a swappable source was exchanged. -/
  | swapped (source : SourceId) (old new : Object)

/-- The line an entry is shown on, if messages down to the given level are. -/
def Entry.line? (shown : Option Level) : Entry → Option String
  | event e =>
    match shown with
    | some l => if e.level.rank ≤ l.rank then some e.display else none
    | none => none
  | note s => some s
  | _ => none

end Aspects
