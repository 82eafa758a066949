/-!
# Type descriptors

Objects, methods and errors carry a description of their type: a name, a kind, a
superclass, the interfaces that are implemented (for an interface: extended) directly,
and the methods declared there. One descriptor is special: the root of all classes and
interfaces, which is a class named `Object` without supertypes or methods. It is equal
to itself only; any other two descriptors are equal when name and kind agree, whatever
else they hold.
-/

namespace Aspects

/-- A piece of user code, known by its number alone. What it does is said elsewhere;
two pieces are the same exactly if their numbers are. -/
structure Routine where
  id : Nat
  deriving DecidableEq, Inhabited

/-- The kinds of types. -/
inductive TypeKind where
  | classKind
  | interfaceKind
  | primitiveKind
  | voidKind
  deriving DecidableEq, Inhabited

/-- The name under which a kind is shown. -/
def TypeKind.name : TypeKind → String
  | classKind => "Class"
  | interfaceKind => "Interface"
  | primitiveKind => "Primitive"
  | voidKind => "Void"

/-- How a method is carried out. -/
inductive Implementation where
  /-- The routine gets the receiver as it is. -/
  | raw (body : Routine)
  /-- The routine works on the state of an instance; a receiver of another sort is
  refused in the name of the type that holds the method. -/
  | onInstance (owner : String) (body : Routine)
  deriving DecidableEq

/-- The routine behind an implementation. -/
def Implementation.body : Implementation → Routine
  | raw b => b
  | onInstance _ b => b

/-- A method declared on a type, over the descriptors `τ` of its parameters and result. -/
structure DeclaredMethod (τ : Type) where
  name : String
  params : List τ
  result : τ
  implementation : Option Implementation

/-- The description of a type. -/
inductive TypeDesc where
  /-- The root of all classes and interfaces. -/
  | root
  /-- Any other type. -/
  | named (name : String) (kind : TypeKind) (superclass : Option TypeDesc)
      (interfaces : List TypeDesc) (methods : List (DeclaredMethod TypeDesc))

namespace TypeDesc

instance : Inhabited TypeDesc := ⟨root⟩

def name : TypeDesc → String
  | root => "Object"
  | named n .. => n

def kind : TypeDesc → TypeKind
  | root => .classKind
  | named _ k .. => k

def superclass : TypeDesc → Option TypeDesc
  | root => none
  | named _ _ s .. => s

/-- The interfaces implemented, or for an interface extended, directly. -/
def interfaces : TypeDesc → List TypeDesc
  | root => []
  | named _ _ _ is _ => is

/-- The methods declared on the type itself. -/
def methods : TypeDesc → List (DeclaredMethod TypeDesc)
  | root => []
  | named _ _ _ _ ms => ms

def isRoot : TypeDesc → Bool
  | root => true
  | named .. => false

def isInterface (t : TypeDesc) : Bool := t.kind == .interfaceKind

def isPrimitive (t : TypeDesc) : Bool := t.kind == .primitiveKind

def isVoid (t : TypeDesc) : Bool := t.kind == .voidKind

/-- A type with nothing but a name and a kind. -/
def plain (name : String) (kind : TypeKind) : TypeDesc :=
  named name kind none [] []

/-- The type of no value. -/
def void : TypeDesc := plain "void" .voidKind

/-- A primitive type. -/
def primitive (name : String) : TypeDesc := plain name .primitiveKind

/-- The primitive type of whole numbers. -/
def int : TypeDesc := primitive "i64"

/-- The primitive type of texts. -/
def text : TypeDesc := primitive "alloc::string::String"

/-- The primitive type of truth values. -/
def flag : TypeDesc := primitive "bool"

/-- Equality of types: the root equals itself only, other types are equal when their
kinds and names are. -/
def same : TypeDesc → TypeDesc → Bool
  | root, root => true
  | named n k .., named m l .. => k == l && n == m
  | _, _ => false

instance : BEq TypeDesc := ⟨same⟩

/-- The type as it is shown for inspection. -/
def inspect (t : TypeDesc) : String :=
  "TypeInfo(" ++ t.kind.name ++ " " ++ t.name ++ ")"

/-- The superclass, if there is one, and then the interfaces. -/
def parents (t : TypeDesc) : List TypeDesc :=
  t.superclass.toList ++ t.interfaces

@[simp]
theorem parents_root : root.parents = [] := rfl

theorem same_refl (t : TypeDesc) : t.same t = true := by
  cases t <;> simp [same]

theorem same_symm (s t : TypeDesc) : s.same t = t.same s := by
  cases s <;> cases t <;> simp only [same]
  rw [Bool.beq_comm, Bool.beq_comm (α := String)]

theorem same_trans {r s t : TypeDesc} (h : r.same s = true) (h' : s.same t = true) :
    r.same t = true := by
  cases r <;> cases s <;> cases t <;> simp_all [same]

end TypeDesc

end Aspects
