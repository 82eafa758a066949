import Aspects.TypeDesc.Hierarchy

/-!
# Objects and values

An object has a type, an identity and a payload. Objects are told apart by identity
alone, so a payload that never changes can be part of the value; the state of an
instance lives with the user code that works on it. A proxy is an object too: its
payload says which configuration it answers for.

A value is an object or nothing.
-/

namespace Aspects

/-- The number of a proxy configuration. -/
structure ConfigId where
  index : Nat
  deriving DecidableEq, Inhabited

/-- How the type of a proxy relates to its target. -/
inductive Strategy where
  /-- The proxy implements the configured interfaces. -/
  | byInterface
  /-- The proxy extends the class of the target. -/
  | bySubclass
  deriving DecidableEq

/-- The name under which a strategy is shown. -/
def Strategy.name : Strategy → String
  | byInterface => "Interface"
  | bySubclass => "Subclass"

/-- What an object holds. -/
inductive Payload where
  | int (n : Int64)
  | text (s : String)
  | flag (b : Bool)
  /-- An object with a state of its own, and the label it was made with. -/
  | entity (label : String)
  /-- A proxy: its configuration, how its type was made, and whether it keeps the
  configuration to itself. -/
  | proxy (config : ConfigId) (strategy : Strategy) (concealed : Bool)

/-- An object. -/
structure Object where
  type : TypeDesc
  id : Nat
  payload : Payload

/-- An argument or a result; `none` is the null value. -/
abbrev Value := Option Object

namespace Object

/-- The same object. -/
def same (a b : Object) : Bool :=
  a.id == b.id

/-- The object may stand where the type is asked for. -/
def isInstanceOf (o : Object) (t : TypeDesc) : Bool :=
  t.accepts o.type

/-- The object as it is shown for inspection. The address is not told. -/
def inspect (o : Object) : String :=
  "Object(" ++ o.type.name ++ "@PTR)"

/-- The configuration behind a proxy. -/
def proxyConfig? (o : Object) : Option ConfigId :=
  match o.payload with
  | .proxy c .. => some c
  | _ => none

def isProxy (o : Object) : Bool :=
  o.proxyConfig?.isSome

def int? (o : Object) : Option Int64 :=
  match o.payload with
  | .int n => some n
  | _ => none

def text? (o : Object) : Option String :=
  match o.payload with
  | .text s => some s
  | _ => none

def flag? (o : Object) : Option Bool :=
  match o.payload with
  | .flag b => some b
  | _ => none

def isEntity (o : Object) : Bool :=
  match o.payload with
  | .entity _ => true
  | _ => false

end Object

/-- A value as it is shown for inspection. -/
def Value.inspect : Value → String
  | none => "None"
  | some o => "Some(" ++ o.inspect ++ ")"

end Aspects
