import Aspects.Scenario.Stage
import Aspects.TypeDesc.Lookup

/-!
# Plays

A play is the program of a step: it issues commands, reads and changes the stage, and
may come to nothing. Terms are evaluated in a play, because some of them make objects.
-/

namespace Aspects.Scenario

/-- The program of a step. -/
abbrev Play := ExceptT StepError (Action Stage)

namespace Play

variable {α : Type}

/-- Issues a command. -/
def issue (c : Command Stage α) : Play α :=
  ExceptT.lift (Program.ofCommand c)

/-- Goes on with an outcome, whose failure is the error of the step. -/
def ofOutcome : Outcome α → Play α
  | .ok a => pure a
  | .error f => throw (.failed f)

/-- Issues a command that may fail. -/
def attempt (c : Command Stage (Outcome α)) : Play α := do
  ofOutcome (← issue c)

/-- Goes on with a fault of the engine as the error of the step. -/
def ofExcept : Except Fault α → Play α
  | .ok a => pure a
  | .error f => throw (.failed (.fault f))

def world : Play (World Stage) :=
  issue .world

def stage : Play Stage := do
  return (← world).user

/-- Changes the stage. -/
def update (f : Stage → Stage) : Play Unit := do
  issue (.setUser (f (← stage)))

/-- Writes a line. -/
def note (line : String) : Play Unit :=
  issue (.note line)

def fresh : Play Nat :=
  issue .fresh

/-- What may be missing must be there. -/
def get (a : Option α) : Play α :=
  match a with
  | some a => pure a
  | none => throw .noObject

/-- The thing with the name. -/
def find (names : Stage → Names α) (name : String) : Play α := do
  get ((names (← stage)).lookup name)

def type (name : String) : Play TypeDesc := do
  get ((← stage).type? name)

def types (names : List String) : Play (List TypeDesc) :=
  names.mapM type

def typeOption (name : Option String) : Play (Option TypeDesc) :=
  name.mapM type

def object (name : String) : Play Object :=
  find (·.objects) name

def config (name : String) : Play ConfigId := do
  get ((← stage).config? name)

/-- A new routine. -/
def define (b : Behaviour) : Play Routine := do
  let routine : Routine := ⟨(← stage).behaviours.size⟩
  update fun s => { s with behaviours := s.behaviours.push b }
  return routine

/-- A new object. -/
def newObject (t : TypeDesc) (p : Payload) : Play Object := do
  return ⟨t, ← fresh, p⟩

/-- A new object with a state. -/
def newEntity (t : TypeDesc) (label : String) (state : Int64) : Play Object := do
  let o ← newObject t (.entity label)
  update (·.setState o state)
  return o

/-- A value in an answer. -/
def report (v : Value) : Play Report := do
  return (← stage).report v

end Play

/-- The method that a description stands for. -/
def MethodTerm.resolve (m : MethodTerm) : Play Method := do
  let found (m : Option Method) : Play Method := match m with
    | some m => pure m
    | none => throw .noMethod
  match m with
  | given declaring name params result =>
    return ⟨← Play.type declaring, name, ← Play.types params, ← Play.type result⟩
  | named type name => found ((← Play.type type).methodNamed name)
  | keyed type name params =>
    found ((← Play.type type).findMethod (.of name (← Play.types params)))

/-- The method of an object that a call is to run. -/
def Callee.resolve (c : Callee) (o : Object) : Play Method :=
  match c with
  | method m => m.resolve
  | named name =>
    match o.type.methodNamed name with
    | some m => pure m
    | none => throw (.failed (.fault (.noSuchMethod o.type.name name)))

/-- The values that the terms of a body refer to. -/
structure Scene where
  args : List Value := []
  this : Value := none
  target : Value := none
  last : Value := none

/-- The value that a term describes. -/
def Term.eval (s : Scene) : Term → Play Value
  | null => pure none
  | int n => do return some (← Play.newObject .int (.int n))
  | text t => do return some (← Play.newObject .text (.text t))
  | flag b => do return some (← Play.newObject .flag (.flag b))
  | object id => do return some (← Play.object id)
  | intOf type n => do return some (← Play.newObject (← Play.type type) (.int n))
  | textOf type t => do return some (← Play.newObject (← Play.type type) (.text t))
  | entityOf type label state => do
    return some (← Play.newEntity (← Play.type type) label state)
  | argument i => pure (s.args[i]?.getD none)
  | this => pure s.this
  | target => pure s.target
  | last => pure s.last

/-- The values that terms describe. -/
def Term.evalAll (s : Scene) (ts : List Term) : Play (List Value) :=
  ts.mapM (eval s)

/-- Calls a method of an object. -/
def Play.call (s : Scene) (o : Object) (c : Callee) (args : List Term) : Play Value := do
  let m ← c.resolve o
  let args ← Term.evalAll s args
  attempt (.call (some o) m args)

end Aspects.Scenario
