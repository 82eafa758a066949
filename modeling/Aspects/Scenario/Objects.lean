import Aspects.Scenario.Play

/-!
# Steps about objects and calls

Making objects and errors, looking at them, and calling methods.
-/

namespace Aspects.Scenario

/-- What a new object holds. -/
inductive Content where
  | int (n : Int64)
  | text (s : String)
  | state (n : Int64)

/-- A step about objects and calls. -/
inductive ObjectStep where
  /-- Makes an object and gives it a name. -/
  | make (id type : String) (content : Content)
  | state (object : String)
  | instanceOf (object type : String)
  | same (a b : String)
  | inspect (object : String)
  /-- An error, and of which types it is. -/
  | throwable (type message : String) (causes : List String) (check : List String)
  | call (object : String) (callee : Callee) (args : List Term)
  /-- Reaches a target, which may be missing, without a proxy. -/
  | joinPoint (target : Option String) (m : MethodTerm) (args : List Term)
  | currentProxy

/-- A new object. -/
def Content.make (label : String) (t : TypeDesc) : Content → Play Object
  | int n => Play.newObject t (.int n)
  | text s => Play.newObject t (.text s)
  | state n => Play.newEntity t label n

/-- All that is known about an error. -/
def reportThrowable (t : Throwable) (check : List TypeDesc) : Report :=
  let asFailure := Failure.thrown t
  .record [
    ("display", .text t.display),
    ("debug", .text t.inspect),
    ("message", .text t.message),
    ("chain", .texts t.causes),
    ("full", .text t.fullDescription),
    ("source", .option .text t.causes.head?),
    ("instance_of", .flags (check.map t.isInstanceOf)),
    ("error", .text asFailure.display),
    ("is_throwable", .flag asFailure.throwable?.isSome),
    ("is_aop", .flag asFailure.throwable?.isNone)]

/-- Whether two objects are the same, and whether they are proxies. -/
def reportSame (a b : Object) : Report :=
  .list [.flag (a.same b), .flag a.isProxy, .flag b.isProxy,
    if a.isProxy && b.isProxy then .flag (a.same b) else .null]

/-- Carries out a step about objects. -/
def ObjectStep.play : ObjectStep → Play Report
  | make id type content => do
    let o ← content.make id (← Play.type type)
    Play.update (·.nameObject id o)
    Play.report o
  | state object => do Play.report (← Play.object object)
  | instanceOf object type => do
    return .flag ((← Play.object object).isInstanceOf (← Play.type type))
  | same a b => do return reportSame (← Play.object a) (← Play.object b)
  | inspect object => do return .text (← Play.object object).inspect
  | throwable type message causes check => do
    let t : Throwable := ⟨← Play.type type, message, causes⟩
    return reportThrowable t (← Play.types check)
  | call object callee args => do
    Play.report (← Play.call {} (← Play.object object) callee args)
  | joinPoint target m args => do
    let target ← target.mapM Play.object
    let m ← m.resolve
    Play.report (← Play.attempt (.call target m (← Term.evalAll {} args)))
  | currentProxy => do
    match (← Play.world).currentProxy with
    | .ok o => Play.report o
    | .error f => throw (.failed (.fault f))

end Aspects.Scenario
