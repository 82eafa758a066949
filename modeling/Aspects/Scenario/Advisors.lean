import Aspects.Adapters
import Aspects.Catalogue
import Aspects.Scenario.Pointcuts

/-!
# Steps about advice, advisors and adapters

Making advice and advisors from descriptions, putting advisors in order, and asking
adapters what they make of advice.
-/

namespace Aspects.Scenario

/-- A description of advice. -/
inductive AdviceTerm where
  /-- The advice with the name. -/
  | named (id : String)
  | before (body : List Stmt)
  | after (body : List Stmt)
  | afterReturning (body : List Stmt) (returning : Option String)
  | afterThrowing (body : List Stmt) (throwing : Option String)
  | around (body : List Stmt)
  | interceptor (body : List Stmt)
  | custom (tag : String)
  | trace (withArguments : Bool)
  | slowCalls (threshold : Nat)
  | reportErrors
  /-- Methods of the interfaces go to the delegate. -/
  | introduce (delegate : String) (interfaces : List String)

/-- A description of an aspect. -/
structure AspectTerm where
  name : String
  order : Option Int
  declared : List (ExprTerm × AdviceTerm)

/-- An adapter that a scenario writes out: the advice it is for, and what the
interceptor does that it makes; without that it refuses. -/
structure AdapterSpec where
  test : AdviceTest
  body : Option (List Stmt)

/-- A step about advice, advisors and adapters. -/
inductive AdvisorStep where
  | advice (id : String) (a : AdviceTerm)
  | sameAdvice (a b : AdviceTerm)
  /-- Makes an advisor, from an aspect if a name and a place there are given. -/
  | advisor (id : String) (a : AdviceTerm) (p : Option (PointcutTerm))
      (order : Option Int) (aspect : Option (String × Nat))
  | introduction (id : String) (interfaces : List String) (delegate : String)
  /-- Makes the advisors of an aspect, and names them by their places. -/
  | aspect (id : String) (a : AspectTerm)
  | sort (advisors : List String)
  | canApply (advisor type : String)
  | applicable (advisors : List String) (type : String)
  /-- Makes a list of adapters: the built-in ones and others. -/
  | adapters (id : String) (extra : List (AdapterSpec))
  | supports (adapters : Option String) (a : AdviceTerm)
  /-- Makes an advisor for everything of advice that is understood. -/
  | wrapAdvice (adapters : Option String) (a : AdviceTerm)
  /-- How many interceptors come of an advisor. -/
  | adapt (adapters : Option String) (advisor : String)
  /-- What one adapter makes of an advisor. -/
  | adapter (a : Adapter) (advisor : String)

/-- A new interceptor. -/
def Play.interceptor (i : Interception) : Play Advice := do
  return .interceptor ⟨← fresh, i⟩

/-- A new routine for advice. -/
def Play.defineAdvice (body : List Stmt) : Play Routine :=
  define (.advice body)

/-- The advice that a description stands for. -/
def AdviceTerm.resolve : AdviceTerm → Play Advice
  | named id => Play.find (·.advice) id
  | before body => do return .before (← Play.defineAdvice body)
  | after body => do return .after (← Play.defineAdvice body)
  | afterReturning body t => do
    return .afterReturning (← Play.defineAdvice body) (← Play.typeOption t)
  | afterThrowing body t => do
    return .afterThrowing (.user (← Play.defineAdvice body)) (← Play.typeOption t)
  | around body => do return .around (← Play.defineAdvice body)
  | interceptor body => do Play.interceptor (.user (← Play.defineAdvice body))
  | custom tag => do return .custom (← Play.fresh) tag
  | trace withArguments => Play.interceptor (.trace withArguments)
  | slowCalls threshold => Play.interceptor (.slowCalls threshold)
  | reportErrors => do return .afterThrowing (.report (← Play.fresh)) none
  | introduce delegate interfaces => do
    Play.interceptor (.introduce (← Play.object delegate) (← Play.types interfaces))

/-- The advisors of the aspect that a description stands for. -/
def AspectTerm.resolve (a : AspectTerm) : Play (List Advisor) := do
  let declared ← a.declared.mapM fun (e, advice) => do return (← e.resolve, ← advice.resolve)
  ExceptT.lift (Aspect.advisors ⟨a.name, a.order, declared⟩)

/-- The adapter that a description stands for. -/
def AdapterSpec.resolve (a : AdapterSpec) : Play Adapter := do
  return .user a.test (← a.body.mapM Play.defineAdvice)

/-- The adapters with the name, or without one those that everything uses. -/
def Play.adapters (name : Option String) : Play AdaptersId :=
  match name with
  | some name => find (·.adapters) name
  | none => pure default

/-- The adapters with the name, as a list. -/
def Play.adapterList (name : Option String) : Play (List Adapter) := do
  return (← world).adapterList (← adapters name)

def Play.advisor (name : String) : Play Advisor :=
  find (·.advisors) name

/-- Gives a name to an advisor. -/
def Play.nameAdvisor (name : String) (a : Advisor) : Play Unit :=
  update fun s => { s with advisors := s.advisors.put name a }

/-- The names of advisors. -/
def Stage.advisorNames (s : Stage) (as : List Advisor) : Report :=
  .texts (as.map fun a => s.advisors.nameOf a.same)

/-- The advisors as they are shown. -/
def reportAdvisors (as : List Advisor) : Report :=
  .texts (as.map Advisor.display)

/-- All that is known about an advisor. -/
def reportAdvisor (a : Advisor) : Report :=
  .record [
    ("display", .text a.display),
    ("debug", .text a.inspect),
    ("before", .flag a.isBefore),
    ("after", .flag a.isAfter),
    ("introduction", .flag a.isIntroduction),
    ("introduced", .texts (a.introduced.map TypeDesc.name)),
    ("order", .option .int a.order),
    ("aspect", .option .text a.aspect),
    ("declaration_order", .nat a.declarationOrder),
    ("type", .text a.advice.kind.name)]

/-- Whether an adapter understands the advice of an advisor, and why it refuses it. -/
def reportAdapter (adapter : Adapter) (a : Advisor) : Report :=
  let refusal := match adapter.interception? a.advice with
    | .ok _ => .null
    | .error f => .record (StepError.failed (.fault f)).fields
  .list [.flag (adapter.supports a.advice), refusal]

/-- An advisor for everything, if adapters understand the advice. -/
def wrapAdvice (adapters : List Adapter) (a : Advice) : Play Advisor := do
  if Adapter.anySupports adapters a then
    return { id := ← Play.fresh, pointcut := .all, advice := a }
  else throw (.failed (.fault (.unknownAdviceType a.kind.name)))

/-- Carries out a step about advisors. -/
def AdvisorStep.play : AdvisorStep → Play Report
  | advice id a => do
    let a ← a.resolve
    Play.update fun s => { s with advice := s.advice.put id a }
    return .list [.text a.kind.name, .text a.inspect, .option .text a.tag?]
  | sameAdvice a b => do return .flag ((← a.resolve).same (← b.resolve))
  | advisor id a p order origin => do
    let advice ← a.resolve
    let pointcut := (← p.mapM PointcutTerm.resolve).getD .all
    let a : Advisor := {
      id := ← Play.fresh
      pointcut, advice, order
      aspect := origin.map (·.1)
      declarationOrder := (origin.map (·.2)).getD 0 }
    Play.nameAdvisor id a
    return reportAdvisor a
  | introduction id interfaces delegate => do
    let a := Advisor.introduction (← Play.fresh) (← Play.fresh) (← Play.types interfaces)
      (← Play.object delegate)
    Play.nameAdvisor id a
    return reportAdvisor a
  | aspect id a => do
    let as ← a.resolve
    as.zipIdx.forM fun (a, i) => Play.nameAdvisor (id ++ "." ++ toString i) a
    return .record [("name", .text a.name), ("advisors", .list (as.map reportAdvisor))]
  | sort names => do
    return (← Play.stage).advisorNames (Precedence.sort (← names.mapM Play.advisor))
  | canApply name type => do
    return .flag (← Play.issue (.canApply (← Play.advisor name) (← Play.type type)))
  | applicable names type => do
    let as ← Play.issue (.applicable (← names.mapM Play.advisor) (← Play.type type))
    return (← Play.stage).advisorNames as
  | adapters id extra => do
    let list ← Play.issue (.newAdapters (← extra.mapM AdapterSpec.resolve))
    Play.update fun s => { s with adapters := s.adapters.put id list }
    return .null
  | supports list a => do
    return .flag (Adapter.anySupports (← Play.adapterList list) (← a.resolve))
  | wrapAdvice list a => do
    let a ← Scenario.wrapAdvice (← Play.adapterList list) (← a.resolve)
    return .text a.display
  | adapt list name => do
    let interceptors ← Play.attempt
      (.interceptors (← Play.adapters list) (← Play.advisor name))
    return .nat interceptors.length
  | adapter a name => do return reportAdapter a (← Play.advisor name)

end Aspects.Scenario
