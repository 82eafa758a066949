import Aspects.Scenario.Play

/-!
# Running bodies

A body is run in a role: as a method, as advice of some kind, as a listener. The role
says what the body sees and what it can do with the invocation it has in hand, if it
has one. Statements are run in order, each told the value that the body got last; the
body ends with that value, or with the one that a statement answers.
-/

namespace Aspects.Scenario

/-- What a body sees at a moment. -/
structure View where
  args : List Value := []
  this : Value := none
  target : Value := none
  joinPoint : Option JoinPoint := none
  /-- What only this role can tell about the call. -/
  detail : Option String := none
  inspection : String := ""
  attribute? : String → Option Object := fun _ => none

namespace View

/-- What a callback sees of a call. -/
def ofJoinPoint (jp : JoinPoint) : View :=
  { args := jp.args, this := some jp.this, target := jp.target, joinPoint := some jp,
    inspection := jp.inspect }

/-- What an interceptor sees of its invocation. -/
def ofInvocation (v : Invocation) : View :=
  { ofJoinPoint v.joinPoint with
    detail := some ("inv " ++ v.method.display ++ " target_type=" ++
      (v.targetType.map TypeDesc.name).getD "none")
    inspection := v.inspect
    attribute? := v.attribute? }

/-- What advice around a call sees of the invocation. -/
def around (v : Invocation) : View :=
  { ofJoinPoint v.joinPoint with
    detail := some ("pjp " ++ v.method.signature ++ " " ++ v.method.display)
    inspection := "ProceedingJoinPoint \x7b invocation: " ++ v.inspect ++ " \x7d" }

/-- The values that terms refer to. -/
def scene (v : View) (last : Value) : Scene :=
  ⟨v.args, v.this, v.target, last⟩

end View

/-- The program of a body. -/
abbrev Deed (F : Type → Type) := ExceptT Failure (Program F)

/-- What a body sees and can do. Continuing an invocation answers nothing where there
is none to continue. -/
structure Role (F : Type → Type) where
  command : {β : Type} → Command Stage β → F β
  view : Program F View
  /-- The object whose state the body works on. -/
  receiver : Option Object := none
  result : Value := none
  error : Option Failure := none
  proceed : Deed F (Option Value) := pure none
  proceedWith : List Value → Deed F (Option Value) := fun _ => pure none
  proceedOnCopy : Option (List Value) → Deed F (Option Value) := fun _ => pure none
  setArguments : List Value → Program F Unit := fun _ => pure ()
  setAttribute : String → Object → Program F Unit := fun _ _ => pure ()
  removeAttribute : String → Program F Unit := fun _ => pure ()

/-- How the statements of a body ended. -/
inductive Ending where
  /-- All of them were run. -/
  | reached (last : Value)
  /-- One of them answered. -/
  | answered (v : Value)

/-- The value of a body that ended. -/
def Ending.value : Ending → Value
  | reached last => last
  | answered v => v

/-- The value of an argument of a sort, as text. -/
def Scalar.read? : Scalar → Object → Option String
  | int, o => o.int?.map fun n => toString n.toInt
  | text, o => o.text?
  | flag, o => o.flag?.map toString

/-- The type that a sort of values has. -/
def Scalar.type : Scalar → TypeDesc
  | int => .int
  | text => .text
  | flag => .flag

namespace ArgumentTest

/-- Do the arguments pass? A type that is not known has no instances. -/
def run (args : List Value) : ArgumentTest → Play Bool
  | const b => pure b
  | count n => pure (args.length == n)
  | present i => pure (args[i]?.join).isSome
  | greater i n => pure ((args[i]?.join.bind (·.int?)).any (· > n))
  | equals i s => pure ((args[i]?.join.bind (·.text?)) == some s)
  | isOf i type => do
    let t ← Play.type type
    return args[i]?.join.any (·.isInstanceOf t)
  | told label t => do
    let b ← t.run args
    Play.note ("pred " ++ label ++ " " ++ toString b)
    return b

end ArgumentTest

namespace Role

variable {α : Type} {F : Type → Type} (role : Role F)

/-- Carries out a play in a body. -/
def play (p : Play α) : Deed F α :=
  ExceptT.mk do
    match ← (p.run.lift role.command) with
    | .ok a => return .ok a
    | .error e => return .error e.failure

/-- The value that a term describes. -/
def eval (last : Value) (t : Term) : Deed F Value := do
  role.play (t.eval ((← role.view).scene last))

/-- The values that terms describe. -/
def evalAll (last : Value) (ts : List Term) : Deed F (List Value) := do
  role.play (Term.evalAll ((← role.view).scene last) ts)

/-- Writes a line. -/
def note (line : String) : Deed F Unit :=
  role.play (Play.note line)

/-- Writes a line with a value. -/
def tell (label : String) (v : Value) : Deed F Unit := do
  role.note (label ++ (← role.play Play.stage).render v)

/-- Writes what is known of the call. -/
def tellJoinPoint (v : View) (jp : JoinPoint) : Deed F Unit := do
  let s ← role.play Play.stage
  role.note ("jp " ++ jp.method.signature ++ " " ++ jp.method.signature ++ " " ++
    jp.method.key.display ++ " " ++ jp.method.name ++ " " ++ jp.targetTypeName ++
    " argc=" ++ toString jp.args.length ++ " target=" ++ s.render jp.target ++
    " this=" ++ s.render jp.this)
  if let some line := v.detail then role.note line

/-- Writes which proxy is current. -/
def tellCurrent : Deed F Unit := do
  match (← role.play Play.world).currentProxy with
  | .ok o => role.tell "current " o
  | .error f => role.note ("current error " ++ f.message)

/-- Writes a line. -/
def remark (last : Value) : Remark → Deed F Unit
  | .text s => role.note s
  | .value t => do role.tell "value " (← role.eval last t)
  | .arguments => do
    let s ← role.play Play.stage
    role.note ("args(" ++ ", ".intercalate ((← role.view).args.map s.render) ++ ")")
  | .joinPoint => do
    let v ← role.view
    if let some jp := v.joinPoint then role.tellJoinPoint v jp
  | .argument i sort => do
    if let some jp := (← role.view).joinPoint then
      let read := (jp.args[i]?.join.bind sort.read?).getD "none"
      role.note ("jp_arg " ++ toString i ++ " " ++ read)
  | .inspection => do role.note (← role.view).inspection
  | .result => role.tell "result " role.result
  | .error => do
    if let some e := role.error then
      role.note ("error " ++ e.display ++ " thrown=" ++ toString e.throwable?.isSome)
  | .current => role.tellCurrent

/-- An argument that must be there and be of a sort. -/
def need (i : Nat) (sort : Scalar) : Deed F Object := do
  let arg := (← role.view).args[i]?.join
  match arg.filter fun o => (sort.read? o).isSome with
  | some o => return o
  | none => throw (.fault (.illegalArgument ("argument " ++ toString i ++
      " is missing or not of type " ++ sort.type.name)))

/-- The state of the receiver as a value. -/
def state : Deed F Value := do
  match role.receiver with
  | some o =>
    let n := (← role.play Play.stage).state o
    return some (← role.play (Play.newObject .int (.int n)))
  | none => return none

/-- Changes the state of the receiver by an argument, and answers the new state. -/
def changeState (i : Nat) (f : Int64 → Int64 → Int64) : Deed F Value := do
  let arg ← role.need i .int
  if let some o := role.receiver then
    role.play (Play.update fun s => s.setState o (f (s.state o) (arg.int?.getD 0)))
  role.state

/-- Calls a method of the current proxy. -/
def callCurrent (last : Value) (name : String) (args : List Term) : Deed F Value := do
  match (← role.play Play.world).currentProxy with
  | .ok o => role.play (Play.call ((← role.view).scene last) o (.named name) args)
  | .error f => throw (.fault f)

/-- Carries out a step and tells how it went. -/
def carryOut (p : Play Report) : Deed F Unit := do
  match ← role.play (ExceptT.lift p.run) with
  | .ok _ => role.note "step ok"
  | .error e => role.note ("step error " ++ e.kind)

end Role

/-- Continues an invocation; without one the value stays what it was. -/
def continued {F : Type → Type} (last : Value) (d : Deed F (Option Value)) : Deed F Ending := do
  return .reached ((← d).getD last)

section

variable {F : Type → Type} (step : Nat → Play Report) (role : Role F)

mutual

/-- Runs a statement, told the value that the body got last. -/
def Stmt.run (last : Value) : Stmt → Deed F Ending
  | .remark r => do
    role.remark last r
    return .reached last
  | .throwError type message causes => do
    let type ← role.play (Play.type type)
    throw (.thrown ⟨type, message, causes⟩)
  | .fail message => throw (.fault (.illegalArgument message))
  | .answer t => do return .answered (← role.eval last t)
  | .setLast t => do return .reached (← role.eval last t)
  | .when t body => do
    if ← role.play (t.run (← role.view).args) then Stmt.runAll last body
    else return .reached last
  | .proceed => continued last role.proceed
  | .proceedOr t => do
    match ← ExceptT.lift role.proceed.run with
    | .ok v => return .reached (v.getD last)
    | .error e =>
      role.note ("caught " ++ e.display)
      return .reached (← role.eval last t)
  | .proceedWith ts => do continued last (role.proceedWith (← role.evalAll last ts))
  | .proceedOnCopy ts => do
    continued last (role.proceedOnCopy (← ts.mapM (role.evalAll last)))
  | .setArguments ts => do
    role.setArguments (← role.evalAll last ts)
    return .reached last
  | .setAttribute key t => do
    if let some o ← role.eval last t then role.setAttribute key o
    return .reached last
  | .tellAttribute key => do
    role.tell ("attr " ++ key ++ " ") ((← role.view).attribute? key)
    return .reached last
  | .removeAttribute key => do
    let old := (← role.view).attribute? key
    role.removeAttribute key
    role.tell ("attr removed " ++ key ++ " ") old
    return .reached last
  | .call object callee args => do
    let scene := (← role.view).scene last
    return .reached (← role.play do Play.call scene (← Play.object object) callee args)
  | .callCurrent name args => do return .reached (← role.callCurrent last name args)
  | .step s => do
    role.carryOut (step s)
    return .reached last
  | .addToState i => do return .reached (← role.changeState i fun old n => old + n)
  | .setState i => do return .reached (← role.changeState i fun _ n => n)
  | .getState => do return .reached (← role.state)
  | .need i sort => do return .reached (some (← role.need i sort))

/-- Runs statements in order, up to one that answers. -/
def Stmt.runAll (last : Value) : List Stmt → Deed F Ending
  | [] => return .reached last
  | s :: rest => do
    match ← Stmt.run last s with
    | .reached last => Stmt.runAll last rest
    | ending => return ending

end

end

end Aspects.Scenario
