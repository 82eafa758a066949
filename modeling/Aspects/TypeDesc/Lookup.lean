import Aspects.Method
import Aspects.TypeDesc.Hierarchy

/-!
# Looking methods up

Three lookups go through the hierarchy, nearest type first: `allMethods` lists every
visible method once, `findMethod` finds one by its key, and `methodNamed` the first
with a name. Two more are about implementations: `findImplementation` looks at the
type itself, then up the superclass, then through the interfaces, and
`mostSpecificMethod` moves a method to the nearest type on the chain of superclasses
that carries it out itself.
-/

namespace Aspects.TypeDesc

/-- The place of each declared method, by key. -/
def index (t : TypeDesc) : List (MethodKey × Nat) :=
  t.methods.zipIdx.map fun (m, i) => (m.key, i)

/-- The method with the key that is declared on the type itself. -/
def ownMethod? (t : TypeDesc) (k : MethodKey) : Option (DeclaredMethod TypeDesc) :=
  (t.index.lookup k).bind fun i => t.methods[i]?

/-- The implementation for the key that the type itself holds. -/
def ownImplementation? (t : TypeDesc) (k : MethodKey) : Option Implementation :=
  (t.ownMethod? k).bind (·.implementation)

/-- The methods declared on the type itself, in order. -/
def declaredMethods (t : TypeDesc) : List Method :=
  t.methods.map (Method.ofDeclared t)

/-- The methods whose key is not yet among the keys seen. -/
def newKeys (seen : List MethodKey) : List Method → List Method
  | [] => []
  | m :: ms => if seen.contains m.key then newKeys seen ms else m :: newKeys (m.key :: seen) ms

/-- The methods visible on the type: of each key the nearest declaration. -/
def allMethods (t : TypeDesc) : List Method :=
  newKeys [] (t.hierarchy.flatMap declaredMethods)

/-- The nearest declaration with the key. -/
def findMethod (t : TypeDesc) (k : MethodKey) : Option Method :=
  t.hierarchy.findSome? fun s => (s.ownMethod? k).map (Method.ofDeclared s)

/-- The nearest declaration with the name; on one type the first. -/
def methodNamed (t : TypeDesc) (name : String) : Option Method :=
  t.hierarchy.findSome? fun s =>
    (s.methods.find? fun m => m.name == name).map (Method.ofDeclared s)

mutual

/-- The implementation that a call with the key runs: the type's own, else the one of
its superclass, else the first that an interface offers. -/
def findImplementation (k : MethodKey) : TypeDesc → Option Implementation
  | root => none
  | named n kind superclass interfaces methods =>
    ((named n kind superclass interfaces methods).ownImplementation? k).or
      ((findInOption k superclass).or (findInList k interfaces))

/-- The implementation found on an optional type. -/
def findInOption (k : MethodKey) : Option TypeDesc → Option Implementation
  | none => none
  | some t => findImplementation k t

/-- The first implementation found on a list of types. -/
def findInList (k : MethodKey) : List TypeDesc → Option Implementation
  | [] => none
  | t :: ts => (findImplementation k t).or (findInList k ts)

end

theorem findInList_eq_findSome? (k : MethodKey) (ts : List TypeDesc) :
    findInList k ts = ts.findSome? (findImplementation k) := by
  induction ts with
  | nil => rfl
  | cons t ts ih =>
    simp only [findInList, List.findSome?_cons, ih]
    cases findImplementation k t <;> rfl

/-- The method as declared on the nearest type of the chain of superclasses that
carries it out itself; the method unchanged if there is none. -/
def mostSpecificMethod (t : TypeDesc) (m : Method) : Method :=
  match t.superclassChain.find? fun s => (s.ownImplementation? m.key).isSome with
  | some s => m.redeclare s
  | none => m

@[simp]
theorem key_mostSpecificMethod (t : TypeDesc) (m : Method) :
    (t.mostSpecificMethod m).key = m.key := by
  unfold mostSpecificMethod
  split <;> simp

end Aspects.TypeDesc
