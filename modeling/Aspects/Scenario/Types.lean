import Aspects.Scenario.Play
import Aspects.TypeDesc.Builder

/-!
# Steps about types and methods

Building types, and asking what the engine knows about types and methods.
-/

namespace Aspects.Scenario

/-- How the method of a type that is built is carried out. -/
inductive MethodBody where
  /-- Not at all. -/
  | declared
  /-- By statements that work on the state of an instance. -/
  | onInstance (body : List Stmt)
  /-- By statements that get the receiver as it is. -/
  | raw (body : List Stmt)

/-- A method of a type that is built. -/
structure MethodSpec where
  name : String
  params : List String
  result : String
  body : MethodBody

/-- A type that is built. -/
structure TypeSpec where
  name : String
  kind : TypeKind
  extended : List String
  implemented : List String
  methods : List (MethodSpec)

/-- A step about types and methods. -/
inductive TypeStep where
  /-- Builds a type and gives it a name. -/
  | build (id : String) (spec : TypeSpec)
  | describe (type : String)
  /-- How two types relate. -/
  | relate (a b : String)
  | method (m : MethodTerm)
  | sameMethod (a b : MethodTerm)
  /-- What is found for a method on a type. -/
  | lookup (type : String) (m : MethodTerm)

/-- Adds a method to a type that is built. -/
def MethodSpec.addTo (m : MethodSpec) (b : TypeDesc.Builder) : Play TypeDesc.Builder := do
  let params ← Play.types m.params
  let result ← Play.type m.result
  match m.body with
  | .declared => return b.declare m.name params result
  | .onInstance body => do
    return b.method m.name params result (← Play.define (.method false body))
  | .raw body => do
    return b.methodRaw m.name params result (← Play.define (.method true body))

/-- The type that is built. -/
def TypeSpec.build (spec : TypeSpec) : Play TypeDesc := do
  match spec.kind with
  | .primitiveKind => return .primitive spec.name
  | .voidKind => return .void
  | kind =>
    let b : TypeDesc.Builder := { name := spec.name, kind }
    let b := (← Play.types spec.extended).foldl TypeDesc.Builder.extending b
    let b := (← Play.types spec.implemented).foldl TypeDesc.Builder.implementing b
    return (← spec.methods.foldlM (fun b m => m.addTo b) b).build

/-- The names of types. -/
def reportTypes (ts : List TypeDesc) : Report :=
  .texts (ts.map TypeDesc.name)

/-- The methods as they are shown. -/
def reportMethods (ms : List Method) : Report :=
  .texts (ms.map Method.display)

/-- The name of a type that may be missing. -/
def reportTypeName (t : Option TypeDesc) : Report :=
  .option (fun t => .text t.name) t

/-- All that is known about a type. -/
def reportType (t : TypeDesc) : Report :=
  .record [
    ("name", .text t.name),
    ("kind", .text t.kind.name),
    ("debug", .text t.inspect),
    ("display", .text t.name),
    ("root", .flag t.isRoot),
    ("interface", .flag t.isInterface),
    ("primitive", .flag t.isPrimitive),
    ("void", .flag t.isVoid),
    ("superclass", reportTypeName t.superclass),
    ("interfaces", reportTypes t.interfaces),
    ("hierarchy", reportTypes t.hierarchy),
    ("all_interfaces", reportTypes t.allInterfaces),
    ("declared", reportMethods t.declaredMethods),
    ("methods", reportMethods t.allMethods)]

/-- All that is known about a method. -/
def reportMethod (m : Method) : Report :=
  .record [
    ("display", .text m.display),
    ("debug", .text m.inspect),
    ("signature", .text m.signature),
    ("key", .text m.key.display),
    ("key_name", .text m.key.name),
    ("name", .text m.name),
    ("declaring", .text m.declaring.name),
    ("params", reportTypes m.params),
    ("return", .text m.result.name)]

/-- What is found for a method on a type. -/
def reportLookup (t : TypeDesc) (m : Method) : Report :=
  .record [
    ("find", .option (fun m => .text m.display) (t.findMethod m.key)),
    ("invoker", .flag (t.findImplementation m.key).isSome),
    ("specific", .text (t.mostSpecificMethod m).display),
    ("redeclared", .text (m.redeclare t).display)]

/-- Carries out a step about types. -/
def TypeStep.play : TypeStep → Play Report
  | build id spec => do
    let t ← spec.build
    Play.update fun s => { s with types := s.types.put id t }
    return .null
  | describe type => do return reportType (← Play.type type)
  | relate a b => do
    let a ← Play.type a
    let b ← Play.type b
    return .flags [a.accepts b, b.accepts a, a.same b]
  | method m => do return reportMethod (← m.resolve)
  | sameMethod a b => do
    let a ← a.resolve
    let b ← b.resolve
    return .flags [a.same b, a.key == b.key]
  | lookup type m => do return reportLookup (← Play.type type) (← m.resolve)

end Aspects.Scenario
