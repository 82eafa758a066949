import Aspects.Advisor
import Aspects.Failure

/-!
# Invocations

A call that goes through interceptors. The chain is a list of links; a dynamic link
has a pointcut that is asked about the arguments each time. The cursor says how far
the call has come: it stands behind the link that is being run, and returns to where
it was when that link's turn ends.

A `JoinPoint` is what a callback gets to see of an invocation.
-/

namespace Aspects

/-- A link of a chain. -/
inductive Link where
  /-- Runs on every call. -/
  | fixed (i : Interceptor)
  /-- Runs on those calls whose arguments pass the pointcut. -/
  | dynamic (i : Interceptor) (p : Pointcut)

namespace Link

def interceptor : Link → Interceptor
  | fixed i => i
  | dynamic i _ => i

def isDynamic : Link → Bool
  | fixed _ => false
  | dynamic .. => true

/-- The same interceptor in a link of the same sort. -/
def same (a b : Link) : Bool :=
  a.isDynamic == b.isDynamic && a.interceptor.id == b.interceptor.id

/-- The link as it is shown for inspection. -/
def inspect : Link → String
  | fixed _ => "Static"
  | dynamic _ p => "Dynamic(" ++ p.describe ++ ")"

end Link

/-- A chain that was worked out, with the number it is told apart by. -/
structure Chain where
  id : Nat
  links : List Link
  deriving Inhabited

/-- What a callback sees of a call. -/
structure JoinPoint where
  method : Method
  args : List Value
  target : Option Object
  this : Object

namespace JoinPoint

/-- The name of the target's type, or without a target of the declaring type. -/
def targetTypeName (jp : JoinPoint) : String :=
  match jp.target with
  | some o => o.type.name
  | none => jp.method.declaring.name

/-- The join point as it is shown for inspection. The time is not told. -/
def inspect (jp : JoinPoint) : String :=
  "JoinPoint \x7b signature: " ++ Text.quote jp.method.signature ++
    ", target: " ++ Value.inspect jp.target ++
    ", args: " ++ toString jp.args.length ++ ", timestamp: Instant \x7d"

end JoinPoint

/-- A call on its way through a chain. -/
structure Invocation where
  proxy : Object
  target : Option Object
  method : Method
  arguments : List Value
  targetType : Option TypeDesc
  chain : List Link
  cursor : Nat := 0
  attributes : List (String × Object) := []

namespace Invocation

/-- What callbacks see of the invocation now. -/
def joinPoint (v : Invocation) : JoinPoint :=
  ⟨v.method, v.arguments, v.target, v.proxy⟩

/-- The attribute with the key. -/
def attribute? (v : Invocation) (key : String) : Option Object :=
  v.attributes.lookup key

/-- Without the attribute with the key. -/
def removeAttribute (v : Invocation) (key : String) : Invocation :=
  { v with attributes := v.attributes.filter fun (k, _) => k != key }

/-- With the attribute set. -/
def setAttribute (v : Invocation) (key : String) (o : Object) : Invocation :=
  { v with attributes := (key, o) :: (v.removeAttribute key).attributes }

/-- A copy in the same place of the chain, with other arguments if some are given. -/
def copy (v : Invocation) (arguments : Option (List Value)) : Invocation :=
  { v with arguments := arguments.getD v.arguments }

/-- The invocation as it is shown for inspection. -/
def inspect (v : Invocation) : String :=
  "MethodInvocation \x7b method: " ++ Text.quote v.method.signature ++
    ", target: " ++ Value.inspect v.target ++
    ", arguments: " ++ toString v.arguments.length ++
    ", cursor: " ++ toString v.cursor ++ ", chain: " ++ toString v.chain.length ++ " \x7d"

end Invocation

end Aspects
