import Aspects.Object
import Aspects.Text.Quoted

/-!
# Failures

A call fails in one of two ways. Either the target or a piece of advice threw an error
of its own, which has a type of the modelled hierarchy, a message and a chain of
causes, or the engine itself found a `Fault`: a call it cannot dispatch, a
configuration it must not change, a text it cannot read.
-/

namespace Aspects

/-- An error thrown by user code. -/
structure Throwable where
  type : TypeDesc
  message : String
  /-- The causes, outermost first. -/
  causes : List String

namespace Throwable

/-- The error as it is shown. -/
def display (t : Throwable) : String :=
  t.type.name ++ ": " ++ t.message

/-- The error with its causes, one a line. -/
def fullDescription (t : Throwable) : String :=
  if t.causes.isEmpty then t.display
  else t.display ++ "\nCaused by:\n  " ++ "\n  ".intercalate t.causes

/-- The error as it is shown for inspection. -/
def inspect (t : Throwable) : String :=
  let cause := match t.causes with
    | [] => "None"
    | c :: _ => "Some(" ++ Text.quote c ++ ")"
  "Throwable \x7b type: " ++ Text.quote t.type.name ++ ", message: " ++ Text.quote t.message ++
    ", cause: " ++ cause ++ " \x7d"

/-- The error may stand where the type is asked for. -/
def isInstanceOf (t : Throwable) (expected : TypeDesc) : Bool :=
  expected.accepts t.type

end Throwable

/-- What the engine itself can find wrong. -/
inductive Fault where
  | noTargetOrAdvisors
  | frozen (action : String)
  | unknownAdviceType (kind : String)
  | notAnInterface (type : String)
  | advisorIndexOutOfBounds (index count : Nat)
  | unresolvableTargetType
  | nullReturnForPrimitive (method result : String)
  | chainExhausted (index length : Nat)
  | targetUnavailable (signature : String)
  | noSuchMethod (type method : String)
  | illegalArgument (message : String)
  | proxyNotAvailable
  | pointcutEvaluation (message : String)
  | targetSource (message : String)
  | config (message : String)
  deriving DecidableEq

namespace Fault

/-- The name of the sort of fault. -/
def kind : Fault → String
  | noTargetOrAdvisors => "NoTargetOrAdvisors"
  | frozen _ => "Frozen"
  | unknownAdviceType _ => "UnknownAdviceType"
  | notAnInterface _ => "NotAnInterface"
  | advisorIndexOutOfBounds .. => "AdvisorIndexOutOfBounds"
  | unresolvableTargetType => "UnresolvableTargetType"
  | nullReturnForPrimitive .. => "NullReturnForPrimitive"
  | chainExhausted .. => "ChainExhausted"
  | targetUnavailable _ => "TargetUnavailable"
  | noSuchMethod .. => "NoSuchMethod"
  | illegalArgument _ => "IllegalArgument"
  | proxyNotAvailable => "ProxyNotAvailable"
  | pointcutEvaluation _ => "PointcutEvaluation"
  | targetSource _ => "TargetSource"
  | config _ => "Config"

/-- The text that tells the fault. -/
def message : Fault → String
  | noTargetOrAdvisors => "No advisors and no TargetSource specified"
  | frozen action => "Cannot " ++ action ++ ": configuration is frozen"
  | unknownAdviceType kind =>
    "Advice type [" ++ kind ++ "] is not recognized by any registered adapter"
  | notAnInterface type => "[" ++ type ++ "] is not an interface"
  | advisorIndexOutOfBounds index count =>
    "Advisor index " ++ toString index ++ " is out of bounds: only have " ++ toString count ++
      " advisors"
  | unresolvableTargetType =>
    "TargetSource cannot determine target type: either an interface or a target is required " ++
      "for proxy creation"
  | nullReturnForPrimitive method result =>
    "Null return value from advice does not match primitive return type for: " ++ method ++
      " -> " ++ result
  | chainExhausted index length =>
    "Interceptor chain exhausted at index " ++ toString index ++
      " without reaching the target (chain length " ++ toString length ++ ")"
  | targetUnavailable signature => "No target available to invoke " ++ signature
  | noSuchMethod type method =>
    "Type [" ++ type ++ "] has no implementation for method " ++ method
  | illegalArgument message => "Illegal argument: " ++ message
  | proxyNotAvailable =>
    "Cannot find current proxy: set 'expose_proxy' to true to make it available, and ensure " ++
      "that AopContext::current_proxy() is invoked in the same thread as the intercepted call"
  | pointcutEvaluation message => "Pointcut evaluation failed: " ++ message
  | targetSource message => "Target source failure: " ++ message
  | config message => "Invalid AOP configuration: " ++ message

end Fault

/-- Why a call failed. -/
inductive Failure where
  | thrown (error : Throwable)
  | fault (fault : Fault)

namespace Failure

/-- The failure as it is shown. -/
def display : Failure → String
  | thrown t => t.display
  | fault f => f.message

/-- The error that user code threw. -/
def throwable? : Failure → Option Throwable
  | thrown t => some t
  | fault _ => none

/-- The name of the sort of failure. -/
def kind : Failure → String
  | thrown _ => "Thrown"
  | fault f => f.kind

end Failure

end Aspects
