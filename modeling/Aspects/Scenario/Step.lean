import Aspects.Engine
import Aspects.Scenario.Invocations
import Aspects.Scenario.Objects
import Aspects.Scenario.Performance

/-!
# Scenarios

A scenario is a list of steps that are carried out in order in a new world; a step that
comes to nothing does not stop it. Each step answers a report or an error, together
with the lines that were written meanwhile: those of user code, and the messages of the
engine down to a level if one is given.
-/

namespace Aspects.Scenario

/-- A step. -/
inductive Step where
  | type (s : TypeStep)
  | object (s : ObjectStep)
  | pointcut (s : PointcutStep)
  | advisor (s : AdvisorStep)
  | source (s : SourceStep)
  | config (s : ConfigStep)
  | catalogue (s : CatalogueStep)
  | invocation (s : InvocationSpec)

/-- What a step means. -/
def Step.play : Step → Play Report
  | type s => s.play
  | object s => s.play
  | pointcut s => s.play
  | advisor s => s.play
  | source s => s.play
  | config s => s.play
  | catalogue s => s.play
  | invocation s => s.play

/-- A scenario: its steps in order, and those that bodies carry out, by their numbers. -/
structure Script where
  steps : List Step
  inner : Array Step

/-- What the step with a number means; a number that no step has means nothing. -/
def Script.meaning (s : Script) (number : Nat) : Play Report :=
  match s.inner[number]? with
  | some step => step.play
  | none => throw .noObject

/-- The world of a scenario. -/
abbrev Theatre := World Stage

/-- How deep calls and steps may be nested in one another. -/
def room : Nat := 1000

namespace Script

/-- Carries a play out in a world. -/
def perform {α : Type} (s : Script) (p : Play α) (w : Theatre) :
    Option (Except StepError α × Theatre) :=
  Engine.run (code s.meaning) room p.run w

/-- What has to be there before the first step: the shared catalogue, with what the
program brings along. -/
def prepare : Play Unit := do
  let c ← Play.issue .newCatalogue
  Play.update fun s => { s with catalogues := s.catalogues.put sharedCatalogue c }
  Play.issue (.autoLoad c)

/-- The world before the first step, in which nothing is written down. -/
def opening (s : Script) : Option Theatre := do
  let (_, w) ← s.perform prepare { user := {} }
  return { w with journal := [] }

/-- The lines written between two moments. -/
def linesBetween (shown : Option Level) (before after : Theatre) : List String :=
  let entries := after.journal.take (after.journal.length - before.journal.length)
  entries.reverse.filterMap (Entry.line? shown)

/-- What a step answers. -/
def reportStep (outcome : Except StepError Report) (lines : List String) : Report :=
  let answer := match outcome with
    | .ok r => [("ok", r)]
    | .error e => e.fields
  let log := if lines.isEmpty then [] else [("log", .texts lines)]
  .record (answer ++ log)

/-- Carries steps out in order. -/
def runSteps (s : Script) (shown : Option Level) (w : Theatre) :
    List Step → Option (List Report)
  | [] => some []
  | step :: rest => do
    let (outcome, after) ← s.perform step.play w
    let answer := reportStep outcome (linesBetween shown w after)
    return answer :: (← s.runSteps shown after rest)

/-- What a scenario answers; nothing if calls are nested too deep or wait for ever. -/
def run (s : Script) (shown : Option Level) : Option Report := do
  let answers ← s.runSteps shown (← s.opening) s.steps
  return .record [("steps", .list answers)]

end Script

end Aspects.Scenario
