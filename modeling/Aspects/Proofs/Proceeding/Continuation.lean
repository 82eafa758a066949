import Aspects.Proceeding

/-!
# The continuation behind a place of a chain

Proceeding moves a cursor that all links of a chain share. This file says the same
without one: `continuation env v place rest` is what is left of a call when the links
`rest` are still to come, a recursion over `rest` in which nothing is ever moved or put
back. Dynamic links whose pointcut rejects the arguments of the moment are passed over,
the first other link gets the continuation at the next place, and behind the last link
the target is reached.

What such a run changes about its invocation is its `Luggage` only, the arguments and
the attributes. A `Leg` is a run with luggage in its hands; the place of a leg is known
from where it stands in the recursion, and is used only to show the invocation to user
code.
-/

namespace Aspects

variable {σ : Type} {α β : Type}

/-- What an invocation carries through its chain: the arguments and the attributes. -/
structure Luggage where
  arguments : List Value
  attributes : List (String × Object)

namespace Luggage

/-- Without the attribute with the key. -/
def removeAttribute (l : Luggage) (key : String) : Luggage :=
  { l with attributes := l.attributes.filter fun (k, _) => k != key }

/-- With the attribute set. -/
def setAttribute (l : Luggage) (key : String) (o : Object) : Luggage :=
  { l with attributes := (key, o) :: (l.removeAttribute key).attributes }

end Luggage

namespace Invocation

/-- What the invocation carries now. -/
def luggage (v : Invocation) : Luggage :=
  ⟨v.arguments, v.attributes⟩

/-- The invocation in the same place, with other luggage. -/
def carrying (v : Invocation) (l : Luggage) : Invocation :=
  { v with arguments := l.arguments, attributes := l.attributes }

/-- The invocation at another place of its chain. -/
def movedTo (v : Invocation) (place : Nat) : Invocation :=
  { v with cursor := place }

end Invocation

/-- A run with luggage in its hands, which may fail. -/
abbrev Leg (σ : Type) := ExceptT Failure (StateT Luggage (Run σ))

namespace Leg

/-- A run that leaves the luggage alone. -/
def ofRun (r : Run σ α) : Leg σ α :=
  ExceptT.lift (StateT.lift r)

/-- An act that leaves the luggage alone. -/
def ofAct (a : Act σ α) : Leg σ α :=
  ExceptT.mk (StateT.lift a.run)

/-- The outcome of a leg instead of its failure. -/
def attempt (g : Leg σ α) : Leg σ (Outcome α) :=
  ExceptT.lift g.run

/-- The leg on a copy of the luggage, with other arguments if some are given. -/
def apart (args : Option (List Value)) (g : Leg σ α) : Leg σ α :=
  ExceptT.mk fun l => do
    let (outcome, _) ← g.run.run { l with arguments := args.getD l.arguments }
    return (outcome, l)

end Leg

section Links

variable (env : Env σ) (here : Invocation) (behind : Leg σ Value)

/-- What callbacks see of the invocation at its place. -/
def Leg.joinPoint : Leg σ JoinPoint := do
  return (here.carrying (← get)).joinPoint

/-- Goes on with other arguments, if they are as many as the method has parameters. -/
def Leg.goOnWith (args : List Value) : Leg σ Value :=
  let expected := here.method.params.length
  if args.length != expected then
    throw (.fault (.illegalArgument ("expecting " ++ toString expected ++
      " arguments to proceed, but got " ++ toString args.length)))
  else behind.apart (some args)

/-- What advice around a call gets for what it asks. -/
def Leg.answerAround : Either (Command σ) AroundStep α → StateT Luggage (Run σ) α
  | .inl c => StateT.lift (env.perform c)
  | .inr .invocation => do return here.carrying (← get)
  | .inr .proceed => behind.run
  | .inr (.proceedWith args) => (Leg.goOnWith here behind args).run

/-- What an interceptor gets for what it asks. -/
def Leg.answerInterceptor :
    Either (Command σ) InvocationStep α → StateT Luggage (Run σ) α
  | .inl c => StateT.lift (env.perform c)
  | .inr .invocation => do return here.carrying (← get)
  | .inr .proceed => behind.run
  | .inr (.proceedOnCopy args) => (behind.apart args).run
  | .inr (.setArguments args) => modify fun l => { l with arguments := args }
  | .inr (.setAttribute key o) => modify fun l => l.setAttribute key o
  | .inr (.removeAttribute key) => modify fun l => l.removeAttribute key

/-- Messages when a call begins and ends. -/
def Leg.traced (withArguments : Bool) : Leg σ Value := do
  let l ← get
  let signature := here.method.signature
  let shown := if withArguments then " with " ++ inspectArguments l.arguments else ""
  Leg.ofRun (emit .info ("→ Entering: " ++ signature ++ shown) [])
  let outcome ← behind.attempt
  let ending := match outcome with
    | .ok _ => ""
    | .error e => " with error " ++ e.display
  Leg.ofRun (emit .info ("← Exiting: " ++ signature ++ ending ++ " (took TIME)") [])
  MonadExcept.ofExcept outcome

/-- A message when a call took longer than so many milliseconds. -/
def Leg.watched (threshold : Nat) : Leg σ Value := do
  let outcome ← behind.attempt
  if isSlow env threshold (← Leg.ofRun get) then
    Leg.ofRun (emit .warn (slowMessage threshold here.method) [])
  MonadExcept.ofExcept outcome

/-- Methods of the introduced interfaces go to the delegate, all others go on. -/
def Leg.introduced (delegate : Object) (interfaces : List TypeDesc) : Leg σ Value := do
  let l ← get
  if introduces interfaces here.method then
    let value ← Leg.ofAct (reachTarget env (some delegate) here.method l.arguments)
    return if value.any (·.same delegate) then some here.proxy else value
  else behind

/-- What one interceptor makes of the leg behind it. -/
def Leg.intercepted : Interception → Leg σ Value
  | .user body => ExceptT.mk
      ((env.code.interceptor body).run.run (Leg.answerInterceptor env here behind))
  | .around body => ExceptT.mk
      ((env.code.around body).run.run (Leg.answerAround env here behind))
  | .before body => do
    Leg.ofAct (env.exec (env.code.before body (← Leg.joinPoint here)))
    behind
  | .afterReturning body filter => do
    let value ← behind
    -- looked at on the way out, as later links have left the luggage
    let jp ← Leg.joinPoint here
    if returnAccepted filter here.method value then
      Leg.ofAct (env.exec (env.code.afterReturning body jp value))
    return value
  | .afterThrowing watcher filter => do
    match ← behind.attempt with
    | .ok value => return value
    | .error e =>
      if failureAccepted filter e then
        Leg.ofAct (watcher.tell env (← Leg.joinPoint here) e)
      throw e
  | .after body => do
    let outcome ← behind.attempt
    Leg.ofAct (env.exec (env.code.after body (← Leg.joinPoint here)))
    MonadExcept.ofExcept outcome
  | .trace withArguments => Leg.traced here behind withArguments
  | .slowCalls threshold => Leg.watched env here behind threshold
  | .introduce delegate interfaces => Leg.introduced env here behind delegate interfaces

end Links

/-- What is left of a call at a place of its chain, `rest` being the links from there
on. Of the invocation `v` only what no link can change is used. -/
def continuation (env : Env σ) (v : Invocation) : Nat → List Link → Leg σ Value
  | _, [] => do Leg.ofAct (reachTarget env v.target v.method (← get).arguments)
  | place, .fixed i :: rest =>
    Leg.intercepted env (v.movedTo (place + 1)) (continuation env v (place + 1) rest)
      i.action
  | place, .dynamic i p :: rest => do
    let behind := continuation env v (place + 1) rest
    if ← Leg.ofRun (p.matchesRuntime env v.method v.targetType (← get).arguments) then
      Leg.intercepted env (v.movedTo (place + 1)) behind i.action
    else
      Leg.ofRun (emit .trace "Runtime match failed, skipping interceptor"
        [("method", v.method.signature), ("index", toString place)])
      behind

end Aspects
