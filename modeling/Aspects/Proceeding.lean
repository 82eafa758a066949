import Aspects.Dispatch
import Aspects.Pointcut.Ask

/-!
# Proceeding through a chain

An invocation proceeds by running the next link of its chain, with a dynamic link only
if its pointcut accepts the arguments of the moment; behind the last link it reaches
the target. The link that runs may proceed in turn, as often as it likes. The cursor
moves while a link is looked for and is put back when the link's turn ends, whether it
succeeded or not, so proceeding again starts at the same link.

A frame is a run that has an invocation in its hands. What a link does to the
arguments and attributes of its invocation stays; what happens on a copy is forgotten
with the copy.
-/

namespace Aspects

variable {σ : Type}

/-- A run with an invocation in its hands, which may fail. -/
abbrev Frame (σ : Type) := ExceptT Failure (StateT Invocation (Run σ))

namespace Frame

variable {α : Type}

/-- A run that leaves the invocation alone. -/
def ofRun (r : Run σ α) : Frame σ α :=
  ExceptT.lift (StateT.lift r)

/-- An act that leaves the invocation alone. -/
def ofAct (a : Act σ α) : Frame σ α :=
  ExceptT.mk (StateT.lift a.run)

/-- The outcome of a frame instead of its failure. -/
def attempt (f : Frame σ α) : Frame σ (Outcome α) :=
  ExceptT.lift f.run

/-- The frame, with the cursor put back afterwards. -/
def keepingCursor (f : Frame σ α) : Frame σ α :=
  ExceptT.mk do
    let saved := (← get).cursor
    let outcome ← f.run
    modify fun v => { v with cursor := saved }
    return outcome

/-- The frame on a copy of the invocation. -/
def onCopy (args : Option (List Value)) (f : Frame σ α) : Frame σ α :=
  ExceptT.mk fun v => do
    let (outcome, _) ← f.run.run (v.copy args)
    return (outcome, v)

end Frame

/-- Continues with other arguments, if they are as many as the method has parameters. -/
def proceedWith (proceed : Frame σ Value) (args : List Value) : Frame σ Value := do
  let expected := (← get).method.params.length
  if args.length != expected then
    throw (.fault (.illegalArgument ("expecting " ++ toString expected ++
      " arguments to proceed, but got " ++ toString args.length)))
  else Frame.onCopy (some args) proceed

/-- Carries out what advice around a call asks for. -/
def performAround (env : Env σ) (proceed : Frame σ Value) {β : Type} :
    Either (Command σ) AroundStep β → StateT Invocation (Run σ) β
  | .inl c => StateT.lift (env.perform c)
  | .inr .invocation => get
  | .inr .proceed => proceed.run
  | .inr (.proceedWith args) => (proceedWith proceed args).run

/-- Carries out what an interceptor asks for. -/
def performInvocation (env : Env σ) (proceed : Frame σ Value) {β : Type} :
    Either (Command σ) InvocationStep β → StateT Invocation (Run σ) β
  | .inl c => StateT.lift (env.perform c)
  | .inr .invocation => get
  | .inr .proceed => proceed.run
  | .inr (.proceedOnCopy args) => (Frame.onCopy args proceed).run
  | .inr (.setArguments args) => modify fun v => { v with arguments := args }
  | .inr (.setAttribute key o) => modify fun v => v.setAttribute key o
  | .inr (.removeAttribute key) => modify fun v => v.removeAttribute key

/-- Does a returned value pass the filter? Nothing is judged by the declared result,
and the root lets through what a method without a result returns. -/
def returnAccepted (filter : Option TypeDesc) (m : Method) (v : Value) : Bool :=
  match filter with
  | none => true
  | some expected =>
    match v with
    | some o => expected.accepts o.type
    | none => (expected.isRoot && m.result.isVoid) || expected.accepts m.result

/-- Does a failure pass the filter? A filter lets only thrown errors through. -/
def failureAccepted (filter : Option TypeDesc) (e : Failure) : Bool :=
  match filter with
  | none => true
  | some expected => e.throwable?.any (·.isInstanceOf expected)

/-- Tells a watcher of an error. -/
def Watcher.tell (env : Env σ) (w : Watcher) (jp : JoinPoint) (e : Failure) : Act σ Unit :=
  match w with
  | user body => env.exec (env.code.afterThrowing body jp e)
  | report _ => Act.ofRun
      (emit .error ("❌ Exception in " ++ jp.method.signature ++ ": " ++ e.display) [])

/-- The arguments as they are shown for inspection. -/
def inspectArguments (args : List Value) : String :=
  "[" ++ ", ".intercalate (args.map Value.inspect) ++ "]"

/-- Messages when a call begins and ends. The time it took is not told. -/
def traced (withArguments : Bool) (proceed : Frame σ Value) : Frame σ Value := do
  let v ← get
  let signature := v.method.signature
  let shown := if withArguments then " with " ++ inspectArguments v.arguments else ""
  Frame.ofRun (emit .info ("→ Entering: " ++ signature ++ shown) [])
  let outcome ← Frame.attempt proceed
  let ending := match outcome with
    | .ok _ => ""
    | .error e => " with error " ++ e.display
  Frame.ofRun (emit .info ("← Exiting: " ++ signature ++ ending ++ " (took TIME)") [])
  MonadExcept.ofExcept outcome

/-- Did a call that ends in the world take longer than so many milliseconds? -/
def isSlow (env : Env σ) (threshold : Nat) (w : World σ) : Bool :=
  env.code.took w > threshold * 1000000

/-- The message about a slow call. The time it took is not told. -/
def slowMessage (threshold : Nat) (m : Method) : String :=
  "⚠️ Slow method detected: " ++ m.signature ++ " took TIME (threshold: " ++
    toString threshold ++ "ms)"

/-- A message when a call took longer than so many milliseconds. -/
def watched (env : Env σ) (threshold : Nat) (proceed : Frame σ Value) : Frame σ Value := do
  let outcome ← Frame.attempt proceed
  if isSlow env threshold (← Frame.ofRun get) then
    Frame.ofRun (emit .warn (slowMessage threshold (← get).method) [])
  MonadExcept.ofExcept outcome

/-- Does one of the interfaces, or a parent of one, declare the method? -/
def introduces (interfaces : List TypeDesc) (m : Method) : Bool :=
  interfaces.any m.declaring.accepts

/-- Methods of the introduced interfaces go to the delegate, and a delegate that returns
itself is replaced by the proxy; all other methods go on. -/
def introduced (env : Env σ) (delegate : Object) (interfaces : List TypeDesc)
    (proceed : Frame σ Value) : Frame σ Value := do
  let v ← get
  if introduces interfaces v.method then
    let value ← Frame.ofAct (reachTarget env (some delegate) v.method v.arguments)
    return if value.any (·.same delegate) then some v.proxy else value
  else proceed

/-- Runs one interceptor, given how to proceed behind it. -/
def intercept (env : Env σ) (proceed : Frame σ Value) : Interception → Frame σ Value
  | .user body => ExceptT.mk
      ((env.code.interceptor body).run.run (performInvocation env proceed))
  | .around body => ExceptT.mk
      ((env.code.around body).run.run (performAround env proceed))
  | .before body => do
    let jp := (← get).joinPoint
    Frame.ofAct (env.exec (env.code.before body jp))
    proceed
  | .afterReturning body filter => do
    let value ← proceed
    let v ← get
    if returnAccepted filter v.method value then
      Frame.ofAct (env.exec (env.code.afterReturning body v.joinPoint value))
    return value
  | .afterThrowing watcher filter => do
    match ← Frame.attempt proceed with
    | .ok value => return value
    | .error e =>
      if failureAccepted filter e then
        Frame.ofAct (watcher.tell env (← get).joinPoint e)
      throw e
  | .after body => do
    let outcome ← Frame.attempt proceed
    Frame.ofAct (env.exec (env.code.after body (← get).joinPoint))
    MonadExcept.ofExcept outcome
  | .trace withArguments => traced withArguments proceed
  | .slowCalls threshold => watched env threshold proceed
  | .introduce delegate interfaces => introduced env delegate interfaces proceed

/-- Looks for the link to run from the cursor on, and runs it. The number bounds how
many links may still be looked at, here and further down. -/
def advance (env : Env σ) : Nat → Frame σ Value
  | 0 => do
    let v ← get
    throw (.fault (.chainExhausted v.cursor v.chain.length))
  | room + 1 => do
    let v ← get
    match v.chain[v.cursor]? with
    | none => Frame.ofAct (reachTarget env v.target v.method v.arguments)
    | some link =>
      set { v with cursor := v.cursor + 1 }
      match link with
      | .fixed i => intercept env (advance env room).keepingCursor i.action
      | .dynamic i p =>
        if ← Frame.ofRun (p.matchesRuntime env v.method v.targetType v.arguments) then
          intercept env (advance env room).keepingCursor i.action
        else
          Frame.ofRun (emit .trace "Runtime match failed, skipping interceptor"
            [("method", v.method.signature), ("index", toString v.cursor)])
          advance env room

/-- Continues an invocation from where it is. A cursor behind the chain leaves no room,
and any other room for every link and the target. -/
def proceed (env : Env σ) : Frame σ Value := do
  let v ← get
  (advance env (v.chain.length + 1 - v.cursor)).keepingCursor

/-- Continues an invocation and answers it with what became of it. -/
def Invocation.run (env : Env σ) (v : Invocation) : Run σ (Outcome Value × Invocation) :=
  (proceed env).run.run v

end Aspects
