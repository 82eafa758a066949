import Aspects.Scenario.Play
import Aspects.Source

/-!
# Steps about target sources

Making sources, and getting, giving back and exchanging their targets.
-/

namespace Aspects.Scenario

/-- A source that a step makes. -/
inductive SourceSpec where
  | empty (type : Option String)
  | singleton (target : String)
  | prototype (type : String) (t : TargetScript)
  | pooled (type : String) (maxSize : Nat) (givesUp : Bool) (t : TargetScript)
  | swappable (target : String)
  | scripted (label : String) (type : Option String) (isStatic : Bool) (given : Term)
      (getError releaseError : Option String)

/-- A step about target sources. -/
inductive SourceStep where
  /-- Makes a source and gives it a name. -/
  | make (id : String) (spec : SourceSpec)
  | describe (source : String)
  /-- Gets a target and gives it a name. -/
  | acquire (source : String) (id : String)
  | release (source object : String)
  /-- Exchanges the target and answers the old one. -/
  | swap (source object : String)

/-- The source that a step makes. -/
def SourceSpec.resolve : SourceSpec → Play Source
  | empty type => do return .empty (← Play.typeOption type)
  | singleton target => do return .singleton (← Play.object target)
  | prototype type t => do
    return .prototype (← Play.type type) (← Play.define (.target t))
  | pooled type maxSize givesUp t => do
    return .pooled (← Play.type type) (← Play.define (.target t)) givesUp (.ofSize maxSize)
  | swappable target => do return .swappable (← Play.object target)
  | scripted label type isStatic given getError releaseError => do
    let v ← given.eval {}
    let body ← Play.define (.source ⟨label, v, getError, releaseError⟩)
    return .user ("ScriptSource(" ++ label ++ ")") (← Play.typeOption type) isStatic body

def Play.source (name : String) : Play SourceId :=
  find (·.sources) name

/-- All that is known about a source; of a pool also how large it may be, how many
targets are lent and how many wait. -/
def reportSource (s : Source) : Report :=
  let pool := match s with
    | .pooled _ _ _ pool =>
      [("pool", .list [.nat pool.maxSize, .nat pool.active, .nat pool.idle.length])]
    | _ => []
  .record ([
    ("debug", .text s.inspect),
    ("type", .option (fun t => .text t.name) s.type?),
    ("static", .flag s.isStatic),
    ("empty", .flag s.isEmpty)] ++ pool)

/-- All that is known about the source with a number. -/
def Play.reportSource (s : SourceId) : Play Report := do
  return Scenario.reportSource ((← world).source s)

/-- Carries out a step about sources. -/
def SourceStep.play : SourceStep → Play Report
  | make id spec => do
    let source ← Play.issue (.newSource (← spec.resolve))
    Play.update fun s => { s with sources := s.sources.put id source }
    Play.reportSource source
  | describe name => do Play.reportSource (← Play.source name)
  | acquire name id => do
    let v ← Play.attempt (.acquire (← Play.source name))
    if let some o := v then Play.update (·.nameObject id o)
    Play.report v
  | release name object => do
    Play.attempt (.release (← Play.source name) (← Play.object object))
    return .null
  | swap name object => do
    Play.report (← Play.attempt (.swap (← Play.source name) (← Play.object object)))

end Aspects.Scenario
