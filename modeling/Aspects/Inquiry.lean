import Aspects.Flags.Reading
import Aspects.Logging.Reading
import Aspects.Scenario.Step
import Aspects.Verdict

/-!
# Inquiries

The questions that can be put to the library as a whole, each with the report that
answers it: about verdicts, patterns and texts of expressions, about flags and logging
settings as they are read, and about what happens in a scenario.
-/

namespace Aspects

open Scenario (Report)

/-- What is done to a verdict. -/
inductive VerdictStep where
  | and (v : Verdict)
  | or (v : Verdict)
  | negate

/-- Where flags are read from. -/
inductive FlagsOrigin where
  /-- Nowhere: they have their defaults. -/
  | defaults
  /-- The text of a document. -/
  | document (text : String)
  /-- A file that is not there. -/
  | missingFile (path : String)

/-- The variables of an environment. -/
abbrev Environment := List (String × String)

/-- A question. -/
inductive Inquiry where
  | verdict (start : Verdict) (steps : List VerdictStep)
  /-- Which names a pattern admits, as names of methods and of types. -/
  | pattern (pattern : String) (names : List String)
  | execution (text : String)
  /-- Which flags are read; without an environment nothing overrides them. -/
  | flags (origin : FlagsOrigin) (env : Option Environment)
  | logging (document : Option String) (env : Environment)
  | scenario (s : Scenario.Script) (shown : Option Level)

namespace VerdictStep

/-- The verdict after the step. -/
def apply (v : Verdict) : VerdictStep → Verdict
  | and w => v.and w
  | or w => v.or w
  | negate => v.negate

/-- The verdicts from the start on, one after each step. -/
def trail (v : Verdict) : List VerdictStep → List Verdict
  | [] => [v]
  | s :: rest => v :: trail (s.apply v) rest

end VerdictStep

namespace Inquiry

/-- A verdict, and whether it rules everything out. -/
def reportVerdict (v : Verdict) : Report :=
  .list [.text v.name, .flag v.isNever]

/-- The verdict on a method that has a name, on a class of that name. -/
def methodVerdict (e : Expr) (name : String) : Verdict :=
  let t := TypeDesc.plain name .classKind
  match e.resolvePure (fun _ _ _ => .ok false) ⟨t, name, [], .void⟩ t with
  | .ok r => r.verdict
  | .error _ => .never

/-- Which names a pattern admits. -/
def reportPattern (pattern : String) (names : List String) : Report :=
  let typed (name : String) : Bool :=
    (Expr.type pattern).matchesType (.plain name .classKind)
  .record [
    ("method", .texts (names.map fun n => (methodVerdict (.method pattern) n).name)),
    ("type", .flags (names.map typed))]

/-- The patterns that an expression read from a text is made of. -/
def parts : Expr → List String
  | .execution t m => [t, m]
  | .method p => [p]
  | _ => []

/-- What the text of an expression is read as. -/
def reportExecution (text : String) : Report :=
  let e := Execution.parse text
  .record [
    ("expr", .text e.inspect),
    ("parts", .texts (parts e)),
    ("describe", .text (Pointcut.memoLabel e (some text))),
    ("parsed", .text (Pointcut.inspectMemo e (some text)))]

/-- The flags from where they are read. -/
def FlagsOrigin.read : FlagsOrigin → Except Fault Flags
  | .defaults => .ok {}
  | .document text => Flags.ofText text
  | .missingFile path => .error (Flags.missingFile path)

/-- The flags that are read, with what the environment overrides. -/
def readFlags (origin : FlagsOrigin) (env : Option Environment) : Except Fault Flags := do
  let f ← FlagsOrigin.read origin
  match env with
  | some env => return f.override fun name => env.lookup name
  | none => return f

/-- The flags that are read, or why there are none. -/
def reportReadFlags : Except Fault Flags → Report
  | .ok f => Scenario.reportFlags f
  | .error f => .record [("error", .text f.kind), ("message", .text f.message)]

/-- What a setting names, or why it names nothing. -/
def reportSetting {α : Type} (name : α → String) : Except Logging.Refusal α → Report
  | .ok a => .text (name a)
  | .error r => .record [("error", .text r.message)]

/-- Logging settings, and what they come to. -/
def reportSettings (s : Logging.Settings) : Report :=
  .record [
    ("level", .text s.level),
    ("format", .text s.format),
    ("show_target", .flag s.showTarget),
    ("show_thread_ids", .flag s.showThreadIds),
    ("filter", .option .text s.filter),
    ("parsed_level", reportSetting Logging.levelName (Logging.parseLevel s.level)),
    ("parsed_format", reportSetting Logging.Format.name (Logging.parseFormat s.format)),
    ("init", .text (match s.check with
      | .ok _ => "valid"
      | .error r => r.message))]

/-- The settings that a document describes; the defaults without one. -/
def readSettings (document : Option String) : Option Logging.Settings :=
  match document with
  | some text => Logging.Settings.ofText? text
  | none => some {}

/-- The answer to a question. Only a scenario may have none. -/
def answer : Inquiry → Option Report
  | verdict start steps =>
    some (.record [("values", .list ((VerdictStep.trail start steps).map reportVerdict))])
  | pattern p names => some (reportPattern p names)
  | execution text => some (reportExecution text)
  | flags origin env => some (reportReadFlags (readFlags origin env))
  | logging document env =>
    match readSettings document with
    | some s => some (reportSettings (s.override fun name => env.lookup name))
    | none => some (.record [("error", .text "Toml")])
  | scenario s shown => s.run shown

end Inquiry

end Aspects
