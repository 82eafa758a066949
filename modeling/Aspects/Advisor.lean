import Aspects.Advice
import Aspects.Pointcut.Basic

/-!
# Advisors

An advisor joins a pointcut with a piece of advice and says where the advice belongs in
the order of things: the aspect it comes from with its place there, and an explicit
order. An advisor that introduces interfaces makes a proxy implement them.
-/

namespace Aspects

/-- An advisor. The number `id` tells advisors apart that are otherwise alike. -/
structure Advisor where
  id : Nat
  pointcut : Pointcut
  advice : Advice
  aspect : Option String := none
  declarationOrder : Nat := 0
  order : Option Int := none
  introduced : List TypeDesc := []

namespace Advisor

/-- The same advisor. -/
def same (a b : Advisor) : Bool :=
  a.id == b.id

/-- An advisor that makes proxies implement the interfaces by means of the delegate. -/
def introduction (id interceptor : Nat) (interfaces : List TypeDesc) (delegate : Object) :
    Advisor :=
  { id, pointcut := .all,
    advice := .interceptor ⟨interceptor, .introduce delegate interfaces⟩,
    introduced := interfaces }

def isIntroduction (a : Advisor) : Bool :=
  !a.introduced.isEmpty

def isBefore (a : Advisor) : Bool :=
  a.advice.kind == .before

def isAfter (a : Advisor) : Bool :=
  match a.advice.kind with
  | .after => true
  | .afterReturning => true
  | .afterThrowing => true
  | _ => false

/-- An optional value as it is shown for inspection. -/
def inspectOption : Option String → String
  | none => "None"
  | some s => "Some(" ++ s ++ ")"

/-- The advisor as it is shown for inspection. -/
def inspect (a : Advisor) : String :=
  "Advisor \x7b pointcut: " ++ Text.quote a.pointcut.describe ++
    ", advice: " ++ a.advice.inspect ++
    ", aspect: " ++ inspectOption (a.aspect.map Text.quote) ++
    ", declaration_order: " ++ toString a.declarationOrder ++
    ", order: " ++ inspectOption (a.order.map toString) ++ " \x7d"

/-- The advisor as it is shown. -/
def display (a : Advisor) : String :=
  let aspect := match a.aspect with
    | some name => ", aspect=" ++ name ++ "#" ++ toString a.declarationOrder
    | none => ""
  let order := match a.order with
    | some n => ", order=" ++ toString n
    | none => ""
  "Advisor[" ++ a.advice.inspect ++ aspect ++ order ++ ", pointcut=" ++
    a.pointcut.describe ++ "]"

end Advisor

end Aspects
