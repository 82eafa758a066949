import Aspects.Scenario.Body
import Aspects.Scenario.Catalogues

/-!
# What the routines of a scenario do

The code of a scenario: for each role in which the engine runs user code, the routine
is looked up on the stage and carried out. A routine asked to play a role that it has
no behaviour for does nothing.
-/

namespace Aspects.Scenario

/-- What the routine does. -/
def behaviour? (r : Routine) : Action Stage (Option Behaviour) := do
  return (← Program.ofCommand .world).user.behaviours[r.id]?

/-- Carries out a play, with an answer in place of an error. -/
def carryOut {α : Type} (instead : α) (p : Play α) : Action Stage α := do
  match ← p.run with
  | .ok a => return a
  | .error _ => return instead

/-- Carries out a play that is part of a call. -/
def asTask {α : Type} (p : Play α) : Task Stage α :=
  ExceptT.mk do
    match ← p.run with
    | .ok a => return .ok a
    | .error e => return .error e.failure

/-- A name that may be missing. -/
def nameOrNone (t : Option TypeDesc) : String :=
  (t.map TypeDesc.name).getD "none"

namespace MethodTest

/-- What the test answers, and the lines that it tells. -/
def answer (m : Method) (t : TypeDesc) : MethodTest → Except String Bool
  | const b => .ok b
  | refused reason => .error reason
  | declaring name => .ok (m.declaring.name == name)
  | target name => .ok (t.name == name)
  | result name => .ok (m.result.name == name)
  | onInterface name =>
    if m.declaring.isInterface then .ok (m.name == name)
    else .error "cannot resolve implementation shape"
  | told _ inner => inner.answer m t

/-- The lines that the test tells, the innermost first. -/
def lines (m : Method) (t : TypeDesc) : MethodTest → List String
  | told label inner =>
    let shown := match inner.answer m t with
      | .ok b => toString b
      | .error _ => "error"
    inner.lines m t ++ ["custom " ++ label ++ " " ++ m.signature ++ "@" ++ t.name ++ " " ++ shown]
  | _ => []

end MethodTest

/-- The verdict with the name. -/
def verdictNamed (answer : String) : Except Fault Verdict :=
  match answer with
  | "Always" => .ok .always
  | "Never" => .ok .never
  | "Maybe" => .ok .maybe
  | reason => .error (.pointcutEvaluation reason)

section Roles

variable (step : Nat → Play Report)

/-- The role of a body that has no invocation in hand. -/
def plainRole (v : View) : Role (Command Stage) where
  command := fun c => c
  view := pure v

/-- The role of advice around a call. -/
def aroundRole : Role (Either (Command Stage) AroundStep) where
  command := .inl
  view := do return View.around (← Program.ofCommand (.inr .invocation))
  proceed := do return some (← ExceptT.mk (Program.ofCommand (.inr .proceed)))
  proceedWith := fun vs => do
    return some (← ExceptT.mk (Program.ofCommand (.inr (.proceedWith vs))))

/-- The role of an interceptor. -/
def interceptorRole : Role (Either (Command Stage) InvocationStep) where
  command := .inl
  view := do return View.ofInvocation (← Program.ofCommand (.inr .invocation))
  proceed := do return some (← ExceptT.mk (Program.ofCommand (.inr .proceed)))
  proceedOnCopy := fun vs => do
    return some (← ExceptT.mk (Program.ofCommand (.inr (.proceedOnCopy vs))))
  setArguments := fun vs => Program.ofCommand (.inr (.setArguments vs))
  setAttribute := fun key o => Program.ofCommand (.inr (.setAttribute key o))
  removeAttribute := fun key => Program.ofCommand (.inr (.removeAttribute key))

/-- The value that statements come to in a role. -/
def runBody {F : Type → Type} (role : Role F) (body : List Stmt) : Deed F Value := do
  return (← Stmt.runAll step role none body).value

/-- The value that advice comes to in a role. -/
def runAdvice {F : Type → Type} (role : Role F) (r : Routine) : Deed F Value := do
  match ← ExceptT.lift ((behaviour? r).lift role.command) with
  | some (.advice body) => runBody step role body
  | _ => return none

/-- Advice that is told about a call. -/
def runCallback (role : Role (Command Stage)) (r : Routine) : Task Stage Unit := do
  let _ ← runAdvice step role r

/-- A method. -/
def runMethodBody (r : Routine) (o : Object) (args : List Value) : Task Stage Value := do
  match ← ExceptT.lift (behaviour? r) with
  | some (.method raw body) =>
    let view : View := { args, this := if raw then some o else none }
    runBody step { plainRole view with receiver := some o } body
  | _ => return none

/-- Statements that nobody waits for. -/
def runAside (body : List Stmt) : Play Unit :=
  ExceptT.lift do
    let _ ← (runBody step (plainRole {}) body).run

end Roles

section Pointcuts

variable (step : Nat → Play Report)

/-- A test of arguments. -/
def testArguments (r : Routine) (args : List Value) : Action Stage Bool := do
  match ← behaviour? r with
  | some (.argumentTest t) => carryOut false (t.run args)
  | _ => return false

/-- A test of a method. -/
def testMethod (r : Routine) (m : Method) (t : TypeDesc) :
    Action Stage (Except String Bool) := do
  match ← behaviour? r with
  | some (.methodTest test) =>
    (test.lines m t).forM fun line => Program.ofCommand (.note line)
    return test.answer m t
  | _ => return .ok false

/-- The class filter of a pointcut. -/
def filterClass (r : Routine) (t : TypeDesc) : Action Stage Bool := do
  match ← behaviour? r with
  | some (.pointcut p) =>
    Program.ofCommand (.note ("pc " ++ p.label ++ " class " ++ t.name))
    return p.matchesClass
  | _ => return true

/-- A scripted pointcut is asked about a method; the first time it carries out its
statements. -/
def PointcutScript.askMethod (p : PointcutScript) (r : Routine) (m : Method)
    (t : Option TypeDesc) : Play Verdict := do
  Play.note ("pc " ++ p.label ++ " method " ++ m.display ++ " " ++ nameOrNone t)
  if !(← Play.stage).asked.contains r then
    Play.update fun s => { s with asked := r :: s.asked }
    runAside step p.onMethod
  Play.ofExcept (verdictNamed p.answer)

/-- The verdict of a pointcut on a method. -/
def judgeMethod (r : Routine) (m : Method) (t : Option TypeDesc) : Task Stage Verdict := do
  match ← ExceptT.lift (behaviour? r) with
  | some (.pointcut p) => asTask (p.askMethod step r m t)
  | some (.verdict answer) => asTask (Play.ofExcept (verdictNamed answer))
  | _ => return .never

/-- The verdict of a pointcut on a call. -/
def judgeCall (r : Routine) (m : Method) (t : Option TypeDesc) (args : List Value) :
    Action Stage Bool := do
  match ← behaviour? r with
  | some (.pointcut p) =>
    Program.ofCommand
      (.note ("pc " ++ p.label ++ " runtime " ++ m.signature ++ " " ++ nameOrNone t))
    carryOut false (p.test.run args)
  | _ => return true

end Pointcuts

section Sources

/-- The number of the next target that a routine makes. -/
def nextNumber (r : Routine) : Play Nat := do
  let n := ((← Play.stage).made.lookup r).getD 0
  Play.update fun s => { s with made := (r, n + 1) :: s.made.filter fun (q, _) => q != r }
  return n

/-- Makes a target. -/
def TargetScript.make (t : TargetScript) (r : Routine) : Play Object := do
  let n ← nextNumber r
  let label := t.label ++ toString n
  Play.note ("create " ++ label)
  if t.failsAt.contains n then
    throw (.failed (.fault (.targetSource ("cannot create " ++ label))))
  else Play.newEntity (← Play.type t.type) label t.state

/-- Fails if a reason is given. -/
def failFor (reason : Option String) : Play Unit :=
  match reason with
  | some text => throw (.failed (.fault (.targetSource text)))
  | none => pure ()

/-- Makes a target for a source. -/
def makeTarget (r : Routine) : Task Stage Object := do
  match ← ExceptT.lift (behaviour? r) with
  | some (.target t) => asTask (t.make r)
  | _ => throw (.fault (.targetSource "nothing makes a target"))

/-- A scripted source gives its target. -/
def giveTarget (r : Routine) : Task Stage Value := do
  match ← ExceptT.lift (behaviour? r) with
  | some (.source s) => asTask do
    Play.note ("get " ++ s.label)
    failFor s.getError
    return s.target
  | _ => return none

/-- A scripted source takes a target back. -/
def takeTarget (r : Routine) (o : Object) : Task Stage Unit := do
  match ← ExceptT.lift (behaviour? r) with
  | some (.source s) => asTask do
    Play.note ("release " ++ s.label ++ " " ++ (← Play.stage).render o)
    failFor s.releaseError
  | _ => return ()

end Sources

section Configurations

variable (step : Nat → Play Report)

/-- Tells what a listener heard, and how the configuration looks. -/
def tellHeard (what name : String) (c : ConfigId) : Play Unit := do
  let c ← Play.readConfig c
  Play.note (what ++ " " ++ name ++
    " advisors=" ++ toString c.advisors.length ++
    " interfaces=" ++ toString c.interfaces.length ++
    " cached=" ++ toString c.cache.length ++
    " active=" ++ toString c.active)

/-- A listener hears that a configuration became active. -/
def hearActivated (r : Routine) (c : ConfigId) : Action Stage Unit := do
  match ← behaviour? r with
  | some (.listener name _) => carryOut () (tellHeard "activated" name c)
  | _ => return ()

/-- A listener hears of a change, and carries out its statements unless it is at them
already. -/
def hearChanged (r : Routine) (c : ConfigId) : Action Stage Unit := do
  match ← behaviour? r with
  | some (.listener name body) => carryOut () do
    tellHeard "changed" name c
    if !(← Play.stage).busy.contains r then
      Play.update fun s => { s with busy := r :: s.busy }
      runAside step body
      Play.update fun s => { s with busy := s.busy.erase r }
  | _ => return ()

/-- A told proxy is made the standard way. -/
def makeToldProxy (c : ConfigId) : Task Stage Object :=
  asTask do
    Play.note ("create proxy active=" ++ toString (← Play.readConfig c).active)
    Play.attempt (.standardProxy c)

/-- A chain is told, and made the standard way and reversed, or not at all. -/
def makeToldChain (r : Routine) (as : List Advisor) (preFiltered : Bool) (m : Method)
    (t : Option TypeDesc) : Task Stage (List Link) := do
  match ← ExceptT.lift (behaviour? r) with
  | some (.chain adapters fails) => asTask do
    Play.note ("chain " ++ toString as.length ++ " " ++ toString preFiltered ++ " " ++
      m.signature)
    if fails then throw (.failed (.fault (.config "no chain")))
    else return (← Play.attempt (.standardChain adapters as preFiltered m t)).reverse
  | _ => return []

end Configurations

/-- The aspect that a scenario brings along. -/
def ownAspect : AspectTerm where
  name := "driver"
  order := some 3
  declared := [
    (.method "global_*", .around [
      .remark (.text "global in"), .proceed, .remark (.text "global out")]),
    (.parsed "* Global*.global_*(..)", .before [.remark (.text "global before")])]

/-- What the routines of a scenario do, given what its steps mean. -/
def code (step : Nat → Play Report) : Code Stage where
  method := runMethodBody step
  before := fun r jp => runCallback step (plainRole (.ofJoinPoint jp)) r
  after := fun r jp => runCallback step (plainRole (.ofJoinPoint jp)) r
  afterReturning := fun r jp v =>
    runCallback step { plainRole (.ofJoinPoint jp) with result := v } r
  afterThrowing := fun r jp e =>
    runCallback step { plainRole (.ofJoinPoint jp) with error := some e } r
  around := runAdvice step aroundRole
  interceptor := runAdvice step interceptorRole
  argumentTest := testArguments
  methodTest := testMethod
  matchesClass := filterClass
  matchesMethod := judgeMethod step
  matchesRuntime := judgeCall
  residue := fun _ _ _ => return none
  create := makeTarget
  acquire := giveTarget
  release := takeTarget
  activated := hearActivated
  changed := hearChanged step
  makeProxy := fun _ c => makeToldProxy c
  makeChain := makeToldChain
  registrations := [⟨ownAspect.name, carryOut [] ownAspect.resolve⟩]

end Aspects.Scenario
