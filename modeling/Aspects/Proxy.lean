import Aspects.Configuration.Change
import Aspects.Proceeding
import Aspects.TypeDesc.Builder

/-!
# Proxies

A proxy is an object whose type implements the configured interfaces, or extends the
class of the target, and two markers: one that all proxies share and one for those that
do not conceal their configuration.

A call to a proxy becomes current if the configuration exposes proxies, gets a target,
goes through the chain for the method, and settles the value: a target that returns
itself is replaced by the proxy where the declared result allows it, and nothing is no
answer where a primitive value is declared. Whatever happens, a target from a dynamic
source is given back, and then the proxy that was current before is so again.
-/

namespace Aspects.Proxy

variable {σ : Type} {α : Type}

/-- The marker of all proxies. -/
def proxyMarker : TypeDesc := .plain "AopProxy" .interfaceKind

/-- The marker of proxies that show their configuration. -/
def advisedMarker : TypeDesc := .plain "Advised" .interfaceKind

/-- How a proxy relates to its target, given flags, interfaces and target type. -/
def chooseStrategy (f : Flags) (interfaces : List TypeDesc) (target : Option TypeDesc) :
    Except Fault Strategy :=
  if f.optimize || f.proxyTargetClass || interfaces.isEmpty then
    match target with
    | some t => .ok (if t.isInterface then .byInterface else .bySubclass)
    | none => .error .unresolvableTargetType
  else .ok .byInterface

/-- A class for a proxy, without the markers. -/
def baseType (strategy : Strategy) (interfaces : List TypeDesc) (target : Option TypeDesc)
    (number : Nat) : TypeDesc.Builder :=
  let plain := TypeDesc.Builder.ofClass ("$Proxy" ++ toString number)
  match strategy, target with
  | .bySubclass, some t =>
    (TypeDesc.Builder.ofClass (t.name ++ "$$ChimeraProxy$" ++ toString number)).extending t
  | _, some t =>
    if t.isInterface && !TypeDesc.listed interfaces t then plain.implementing t else plain
  | _, none => plain

/-- The type of a proxy. -/
def typeFor (strategy : Strategy) (f : Flags) (interfaces : List TypeDesc)
    (target : Option TypeDesc) (number : Nat) : TypeDesc :=
  let b := interfaces.foldl TypeDesc.Builder.implementing
    (baseType strategy interfaces target number)
  let b := b.implementing proxyMarker
  (if f.concealed then b else b.implementing advisedMarker).build

/-- Makes a proxy the standard way. -/
def create (id : ConfigId) : Act σ Object := do
  let w ← Act.world
  let c := w.config id
  if c.advisors.isEmpty && (w.source c.source).isEmpty then Act.fail .noTargetOrAdvisors
  else
    let target := c.targetType? w
    let strategy ← Act.ofExcept (chooseStrategy c.flags c.interfaces target)
    let type := typeFor strategy c.flags c.interfaces target w.proxyCount
    Act.update fun w => { w with proxyCount := w.proxyCount + 1 }
    Act.ofRun (emit .debug "Created AOP proxy"
      [("proxy_type", type.name), ("strategy", strategy.name),
       ("interfaces", toString c.interfaces.length),
       ("advisors", toString c.advisors.length)])
    let number ← Act.ofRun freshId
    return ⟨type, number, .proxy id strategy c.flags.concealed⟩

/-- Wakes the configuration up and makes a proxy. -/
def get (env : Env σ) (id : ConfigId) (maker : ProxyMaker) : Act σ Object := do
  Act.ofRun (Configuration.activate env id)
  match maker with
  | .standard => create id
  | .user body => env.exec (env.code.makeProxy body id)

/-- The proxy is shown with its strategy and whether it conceals its configuration. -/
def inspect (o : Object) : String :=
  match o.payload with
  | .proxy _ strategy concealed =>
    "Proxy \x7b type: " ++ Text.quote o.type.name ++ ", strategy: " ++ strategy.name ++
      ", opaque: " ++ toString concealed ++ " \x7d"
  | _ => o.inspect

/-- The configuration that a proxy shows. -/
def advised? (o : Object) : Option ConfigId :=
  match o.payload with
  | .proxy c _ false => some c
  | _ => none

/-- The act with the proxy as the current one. -/
def exposing (proxy : Object) (a : Act σ α) : Act σ α :=
  ExceptT.mk do
    let before := (← MonadState.get).current
    modify fun w => { w with current := some proxy }
    let outcome ← a.run
    modify fun w => { w with current := before }
    return outcome

/-- Gives a target back; a failure to do so is only reported. -/
def giveBack (env : Env σ) (s : SourceId) (o : Object) : Run σ Unit := do
  record (.released s o)
  match ← (Source.release env s o).run with
  | .ok _ => return ()
  | .error e =>
    emit .warn "Failed to release target"
      [("source", ((← MonadState.get).source s).inspect), ("error", e.display)]

/-- The act, after which the target is given back if the source wants it. -/
def returning (env : Env σ) (s : SourceId) (target : Option Object) (a : Act σ α) :
    Act σ α := do
  match target, ((← Act.world).source s).isStatic with
  | some o, false =>
    Act.ofRun (record (.acquired s o))
    ExceptT.mk do
      let outcome ← a.run
      giveBack env s o
      return outcome
  | _, _ => a

/-- Settles the value that a call came back with. -/
def settle (proxy : Object) (target : Option Object) (m : Method) (v : Value) :
    Except Fault Value :=
  match v with
  | some o =>
    if target.any (o.same ·) && !m.result.isVoid && m.result.accepts proxy.type then
      .ok (some proxy)
    else .ok v
  | none =>
    if m.result.isPrimitive then .error (.nullReturnForPrimitive m.display m.result.name)
    else .ok none

/-- The call with the target in hand: through the chain, or straight to the target if
the chain is empty. -/
def callOn (env : Env σ) (proxy : Object) (id : ConfigId) (s : SourceId)
    (target : Option Object) (m : Method) (args : List Value) : Act σ Value := do
  let w ← Act.world
  let targetType := match target with
    | some o => some o.type
    | none => (w.source s).type?
  let chain ← Configuration.chainFor env id m targetType
  let value ← match chain.links with
    | [] => reachTarget env target m args
    | links => ExceptT.mk do
      let v : Invocation :=
        { proxy, target, method := m, arguments := args, targetType, chain := links }
      return (← v.run env).1
  Act.ofExcept (settle proxy target m value)

/-- The call, from getting a target to giving it back. -/
def callThrough (env : Env σ) (proxy : Object) (id : ConfigId) (m : Method)
    (args : List Value) : Act σ Value := do
  let s := (← Configuration.read id).source
  let target ← Source.acquire env s
  returning env s target (callOn env proxy id s target m args)

/-- A call to a proxy. -/
def call (env : Env σ) (proxy : Object) (id : ConfigId) (m : Method) (args : List Value) :
    Act σ Value := do
  if (← Configuration.read id).flags.exposeProxy then
    exposing proxy (callThrough env proxy id m args)
  else callThrough env proxy id m args

end Aspects.Proxy
