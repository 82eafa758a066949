import Aspects.TypeDesc.Basic

/-!
# Methods

A method is a declaring type, a name, the types of the parameters and the type of the
result. Its `MethodKey`, the name with the names of the parameter types, leaves out
the declaring type, so a method of an interface and the method of a class that carries
it out have one key. Two methods are equal when key and declaring type are.
-/

namespace Aspects

/-- What identifies a method within a hierarchy. -/
structure MethodKey where
  name : String
  params : List String
  deriving DecidableEq, Hashable, Inhabited

namespace MethodKey

/-- The key of a method with this name and these parameters. -/
def of (name : String) (params : List TypeDesc) : MethodKey :=
  ⟨name, params.map TypeDesc.name⟩

/-- The key as it is shown. -/
def display (k : MethodKey) : String :=
  k.name ++ "(" ++ ", ".intercalate k.params ++ ")"

end MethodKey

/-- The key of a declared method. -/
def DeclaredMethod.key (m : DeclaredMethod TypeDesc) : MethodKey :=
  .of m.name m.params

/-- A method. -/
structure Method where
  declaring : TypeDesc
  name : String
  params : List TypeDesc
  result : TypeDesc
  deriving Inhabited

namespace Method

/-- The key of the method. -/
def key (m : Method) : MethodKey :=
  .of m.name m.params

/-- A declared method as a method of the type that holds it. -/
def ofDeclared (t : TypeDesc) (d : DeclaredMethod TypeDesc) : Method :=
  ⟨t, d.name, d.params, d.result⟩

/-- The declaring type and the name. -/
def signature (m : Method) : String :=
  m.declaring.name ++ "::" ++ m.name

/-- The method as it is shown. -/
def display (m : Method) : String :=
  m.declaring.name ++ "::" ++ m.key.display ++ " -> " ++ m.result.name

/-- The method as it is shown for inspection. -/
def inspect (m : Method) : String :=
  "Method(" ++ m.display ++ ")"

/-- Equality of methods. -/
def same (a b : Method) : Bool :=
  a.key == b.key && a.declaring.same b.declaring

instance : BEq Method := ⟨same⟩

/-- The same method on another declaring type; on an equal one nothing changes. -/
def redeclare (m : Method) (t : TypeDesc) : Method :=
  if m.declaring.same t then m else { m with declaring := t }

@[simp]
theorem key_redeclare (m : Method) (t : TypeDesc) : (m.redeclare t).key = m.key := by
  unfold redeclare
  split <;> rfl

@[simp]
theorem key_ofDeclared (t : TypeDesc) (d : DeclaredMethod TypeDesc) :
    (ofDeclared t d).key = d.key := rfl

end Method

end Aspects
