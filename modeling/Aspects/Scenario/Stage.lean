import Aspects.Program
import Aspects.Scenario.Report
import Aspects.Scenario.Stmt

/-!
# The stage

What a scenario keeps while its steps are carried out: the things that its steps gave
names to, what its routines do, and the states that its routines change. The stage is
the state of user code in a world.
-/

namespace Aspects.Scenario

/-- Things by name. -/
abbrev Names (α : Type) := List (String × α)

/-- Gives a name to a thing and takes it from the thing that had it. -/
def Names.put {α : Type} (names : Names α) (name : String) (a : α) : Names α :=
  (name, a) :: names.filter fun (n, _) => n != name

/-- The name of the first thing that passes the test, or a question mark. -/
def Names.nameOf {α : Type} (names : Names α) (test : α → Bool) : String :=
  ((names.find? fun (_, a) => test a).map (·.1)).getD "?"

/-- A pointcut that a scenario writes out. -/
structure PointcutScript where
  label : String
  matchesClass : Bool
  /-- The name of a verdict, or the reason why there is none. -/
  answer : String
  test : ArgumentTest
  /-- What to do when it is asked about a method for the first time. -/
  onMethod : List Stmt

/-- What makes the targets of a source, each with the label and a number. -/
structure TargetScript where
  type : String
  label : String
  state : Int64
  /-- The numbers of the targets that cannot be made. -/
  failsAt : List Nat

/-- A source that a scenario writes out. -/
structure SourceScript where
  label : String
  target : Value
  getError : Option String
  releaseError : Option String

/-- What a routine of a scenario does. -/
inductive Behaviour where
  /-- A method; one that gets the receiver as it is sees it as `this`. -/
  | method (raw : Bool) (body : List Stmt)
  /-- Advice of any kind, or what an adapter makes of it. -/
  | advice (body : List Stmt)
  | argumentTest (t : ArgumentTest)
  | methodTest (t : MethodTest)
  | pointcut (p : PointcutScript)
  /-- A pointcut that answers about methods and says nothing else. -/
  | verdict (answer : String)
  | target (t : TargetScript)
  | source (s : SourceScript)
  | listener (name : String) (onChange : List Stmt)
  /-- Tells that a proxy is made and makes it the standard way. -/
  | proxy
  /-- Makes the standard chain and reverses it, or fails. -/
  | chain (adapters : AdaptersId) (fails : Bool)

/-- A factory of proxies: its configuration, and who makes the proxies. -/
structure Factory where
  config : ConfigId
  maker : ProxyMaker

/-- What a scenario keeps. -/
structure Stage where
  types : Names TypeDesc := []
  objects : Names Object := []
  /-- The proxies with their first names in front. -/
  proxies : Names Object := []
  pointcuts : Names Pointcut := []
  advice : Names Advice := []
  advisors : Names Advisor := []
  adapters : Names AdaptersId := []
  sources : Names SourceId := []
  factories : Names Factory := []
  listeners : Names Routine := []
  catalogues : Names CatalogueId := []
  behaviours : Array Behaviour := #[]
  /-- The states of objects, by their numbers. -/
  states : List (Nat × Int64) := []
  /-- How many targets were made. -/
  made : List (Routine × Nat) := []
  /-- Listeners whose statements are being carried out. -/
  busy : List Routine := []
  /-- Pointcuts that were asked about a method. -/
  asked : List Routine := []
  /-- The chain that was answered last under a name for a method. -/
  chains : List ((String × MethodKey) × Chain) := []

namespace Stage

/-- A type that needs no step. -/
def builtIn? (name : String) : Option TypeDesc :=
  match name with
  | "void" => some .void
  | "object" => some .root
  | "i64" => some .int
  | "String" => some .text
  | "bool" => some .flag
  | _ =>
    match name.toList with
    | 'p' :: 'r' :: 'i' :: 'm' :: ':' :: rest => some (.primitive (String.ofList rest))
    | _ => none

/-- The type with the name. -/
def type? (s : Stage) (name : String) : Option TypeDesc :=
  (s.types.lookup name).or (builtIn? name)

/-- The state of an object. -/
def state (s : Stage) (o : Object) : Int64 :=
  (s.states.lookup o.id).getD 0

def setState (s : Stage) (o : Object) (n : Int64) : Stage :=
  { s with states := (o.id, n) :: s.states.filter fun (i, _) => i != o.id }

/-- Gives a name to an object; a proxy keeps all its names. -/
def nameObject (s : Stage) (name : String) (o : Object) : Stage :=
  { s with
    objects := s.objects.put name o
    proxies := if o.isProxy then s.proxies ++ [(name, o)] else s.proxies }

/-- The first name of a proxy. -/
def proxyName (s : Stage) (o : Object) : String :=
  s.proxies.nameOf o.same

/-- An object in an answer. -/
def reportObject (s : Stage) (o : Object) : Report :=
  .record (("type", .text o.type.name) :: match o.payload with
    | .int n => [("i64", .int n.toInt)]
    | .text t => [("str", .text t)]
    | .flag b => [("bool", .flag b)]
    | .entity label => [("inst", .text label), ("state", .int (s.state o).toInt)]
    | .proxy .. => [("proxy", .text (s.proxyName o))])

/-- A value in an answer. -/
def report (s : Stage) (v : Value) : Report :=
  .option s.reportObject v

/-- A value in a line. -/
def render (s : Stage) (v : Value) : String :=
  match v with
  | none => "null"
  | some o =>
    let held := match o.payload with
      | .int n => toString n.toInt
      | .text t => t
      | .flag b => toString b
      | .entity label => "#" ++ label
      | .proxy .. => "proxy " ++ s.proxyName o
    o.type.name ++ "(" ++ held ++ ")"

/-- The configuration that a factory or a proxy shows under a name. -/
def config? (s : Stage) (name : String) : Option ConfigId :=
  match s.factories.lookup name with
  | some f => some f.config
  | none =>
    match s.objects.lookup name with
    | some ⟨_, _, .proxy c _ false⟩ => some c
    | _ => none

end Stage

end Aspects.Scenario
