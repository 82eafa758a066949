import Aspects.Pointcut.Execution
import Aspects.Scenario.Play

/-!
# Steps about pointcuts

Making pointcuts from descriptions, and asking them about classes, methods and calls.
-/

namespace Aspects.Scenario

/-- A description of a pointcut. -/
inductive PointcutTerm where
  /-- The pointcut with the name. -/
  | named (id : String)
  | all
  /-- An expression as it is. -/
  | expr (e : ExprTerm)
  /-- An expression that remembers its residues. -/
  | memo (e : ExprTerm)
  /-- The expression that a text stands for, remembering its residues. -/
  | parsed (text : String)
  /-- What is left of an expression for a method and a target type. -/
  | residue (e : ExprTerm) (m : MethodTerm) (target : String)
  /-- A pointcut that answers about methods and leaves all else open. -/
  | verdict (answer : String)
  | scripted (p : PointcutScript)

/-- A step about pointcuts. -/
inductive PointcutStep where
  | make (id : String) (p : PointcutTerm)
  | matchesClass (p : PointcutTerm) (type : String)
  | matchesMethod (p : PointcutTerm) (m : MethodTerm) (target : Option String)
  | matchesRuntime (p : PointcutTerm) (m : MethodTerm) (target : Option String)
      (args : List (List Term))
  /-- What is left of a pointcut, and what that answers. -/
  | residue (p : PointcutTerm) (m : MethodTerm) (target : Option String)
      (args : List (List Term))
  /-- How many residues a pointcut remembers. -/
  | remembered (p : PointcutTerm)
  /-- Everything an expression answers about a method, both by its residue and at once. -/
  | resolve (e : ExprTerm) (m : MethodTerm) (target : String) (args : List (List Term))

/-- The expression that a description stands for. -/
def ExprTerm.resolve : ExprTerm → Play Expr
  | all => pure .all
  | type p => pure (.type p)
  | method p => pure (.method p)
  | execution t m => pure (.execution t m)
  | parsed text => pure (Execution.parse text)
  | typeRegex r => pure (.typeRegex r)
  | methodRegex r => pure (.methodRegex r)
  | target t => do return .target (← Play.type t)
  | args ts => do return .args (← Play.types ts)
  | argsMatching t => do return .argsMatching (← Play.define (.argumentTest t))
  | custom t => do return .custom (← Play.define (.methodTest t))
  | and a b => do return .and (← a.resolve) (← b.resolve)
  | or a b => do return .or (← a.resolve) (← b.resolve)
  | not a => do return .not (← a.resolve)

/-- What is left of an expression for a method and a target type. -/
def Play.residue (e : Expr) (m : Method) (t : TypeDesc) : Play Residue :=
  attempt (.resolve e m t)

/-- The pointcut that a description stands for. -/
def PointcutTerm.resolve : PointcutTerm → Play Pointcut
  | named id => Play.find (·.pointcuts) id
  | all => pure .all
  | expr e => do return .expr (← e.resolve)
  | memo e => do Play.issue (.newMemo (← e.resolve) none)
  | parsed text => Play.issue (.newMemo (Execution.parse text) (some text))
  | residue e m target => do
    let e ← e.resolve
    let m ← m.resolve
    return .residue (← Play.residue e m (← Play.type target))
  | verdict answer => do return .user "Pointcut" (← Play.define (.verdict answer))
  | scripted p => do return .user p.label (← Play.define (.pointcut p))

/-- What each list of arguments leads to. -/
def Play.forEach {α : Type} (args : List (List Term)) (f : List Value → Play α) :
    Play (List α) :=
  args.mapM fun ts => do f (← Term.evalAll {} ts)

/-- What the residue of a pointcut answers. -/
def reportResidue (p : Pointcut) (m : Method) (t : Option TypeDesc) (args : List (List Term)) :
    Play Report := do
  let verdict ← Play.attempt (.matchesMethod p m t)
  let filter ← t.mapM fun t => Play.issue (.matchesClass p t)
  let runtime ← Play.forEach args fun vs => Play.issue (.matchesRuntime p m t vs)
  return .record [
    ("describe", .text p.describe),
    ("match", .text verdict.name),
    ("class", .option .flag filter),
    ("runtime", .flags runtime)]

/-- Everything an expression answers about a method. -/
def reportResolved (e : Expr) (m : Method) (t : TypeDesc) (args : List (List Term)) :
    Play Report := do
  let residue ← Play.residue e m t
  let evaluated ← Play.residue e m t
  let runtime ← Play.forEach args fun vs => do
    let staged ← Play.issue (.passes residue m vs)
    let atOnce ← Play.issue (.evaluate e m t vs)
    return .flags [staged, atOnce]
  return .record [
    ("debug", .text residue.inspect),
    ("match", .text residue.verdict.name),
    ("evaluate", .text evaluated.verdict.name),
    ("expr", .text e.inspect),
    ("type", .flag (e.matchesType t)),
    ("runtime", .list runtime)]

/-- How many residues a pointcut remembers, and how it is shown. -/
def reportRemembered (p : Pointcut) : Play Report := do
  match p with
  | .memo id e source =>
    let memory := Remembered.latest ((← Play.world).memory id)
    return .list [.nat memory.length, .text (Pointcut.inspectMemo e source), .text e.inspect]
  | _ => throw .noObject

/-- Carries out a step about pointcuts. -/
def PointcutStep.play : PointcutStep → Play Report
  | make id p => do
    let p ← p.resolve
    Play.update fun s => { s with pointcuts := s.pointcuts.put id p }
    return .text p.describe
  | matchesClass p type => do
    let p ← p.resolve
    return .flag (← Play.issue (.matchesClass p (← Play.type type)))
  | matchesMethod p m target => do
    let p ← p.resolve
    let m ← m.resolve
    return .text (← Play.attempt (.matchesMethod p m (← Play.typeOption target))).name
  | matchesRuntime p m target args => do
    let p ← p.resolve
    let m ← m.resolve
    let t ← Play.typeOption target
    return .flags (← Play.forEach args fun vs => Play.issue (.matchesRuntime p m t vs))
  | residue p m target args => do
    let p ← p.resolve
    let m ← m.resolve
    let t ← Play.typeOption target
    match ← Play.issue (.residue p m t) with
    | some rest => reportResidue rest m t args
    | none => return .null
  | remembered p => do reportRemembered (← p.resolve)
  | resolve e m target args => do
    let e ← e.resolve
    let m ← m.resolve
    reportResolved e m (← Play.type target) args

end Aspects.Scenario
