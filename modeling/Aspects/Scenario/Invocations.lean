import Aspects.Scenario.Advisors

/-!
# Explicit invocations

A step that puts an invocation together by hand, with a chain of interceptors written
out in place, and continues it from its start as often as asked.
-/

namespace Aspects.Scenario

/-- A link of a chain that is written out; with a pointcut it is dynamic. -/
structure LinkSpec where
  body : List Stmt
  pointcut : Option (PointcutTerm)

/-- An invocation that is put together, and how often it is continued. -/
structure InvocationSpec where
  this : String
  target : Option String
  method : MethodTerm
  args : List Term
  targetType : Option String
  chain : List (LinkSpec)
  times : Nat

/-- The link that is written out. -/
def LinkSpec.resolve (l : LinkSpec) : Play Link := do
  let i : Interceptor := ⟨← Play.fresh, .user (← Play.defineAdvice l.body)⟩
  match ← l.pointcut.mapM PointcutTerm.resolve with
  | some p => return .dynamic i p
  | none => return .fixed i

/-- The invocation that is put together. -/
def InvocationSpec.resolve (spec : InvocationSpec) : Play Invocation := do
  return {
    proxy := ← Play.object spec.this
    target := ← spec.target.mapM Play.object
    method := ← spec.method.resolve
    arguments := ← Term.evalAll {} spec.args
    targetType := ← Play.typeOption spec.targetType
    chain := ← spec.chain.mapM LinkSpec.resolve }

/-- An outcome in an answer. -/
def reportOutcome (s : Stage) : Outcome Value → Report
  | .ok v => s.report v
  | .error f => .record (StepError.failed f).fields

/-- Continues an invocation so many times, and answers what came of it each time. -/
def continueTimes : Nat → Invocation → Play (List Report × Invocation)
  | 0, v => return ([], v)
  | n + 1, v => do
    let (outcome, v) ← Play.issue (.proceed v)
    let answer := reportOutcome (← Play.stage) outcome
    let (answers, v) ← continueTimes n v
    return (answer :: answers, v)

/-- Carries out the step. -/
def InvocationSpec.play (spec : InvocationSpec) : Play Report := do
  let (answers, v) ← continueTimes spec.times (← spec.resolve)
  return .record [("results", .list answers), ("debug", .text v.inspect)]

end Aspects.Scenario
