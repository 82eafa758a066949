import Aspects.TypeDesc.Lookup

/-!
# Building types

A type is built step by step: supertypes first, then methods. A method given again
under a key that is taken replaces the earlier one in its place, so a built type
declares each key once, in the order in which the keys were first given.
-/

namespace Aspects.TypeDesc

/-- A type under construction. -/
structure Builder where
  name : String
  kind : TypeKind
  superclass : Option TypeDesc := none
  interfaces : List TypeDesc := []
  methods : List (DeclaredMethod TypeDesc) := []

namespace Builder

/-- A class without a superclass. -/
def ofClass (name : String) : Builder :=
  ⟨name, .classKind, none, [], []⟩

/-- An interface without parents. -/
def ofInterface (name : String) : Builder :=
  ⟨name, .interfaceKind, none, [], []⟩

/-- Sets the superclass of a class; an interface gets one more parent. -/
def extending (b : Builder) (parent : TypeDesc) : Builder :=
  match b.kind with
  | .interfaceKind => { b with interfaces := b.interfaces ++ [parent] }
  | _ => { b with superclass := some parent }

/-- Adds an interface unless an equal one is there. -/
def implementing (b : Builder) (i : TypeDesc) : Builder :=
  { b with interfaces := addNew b.interfaces [i] }

/-- The list with the method in place of the one with its key, or at the end. -/
def place (ms : List (DeclaredMethod TypeDesc)) (m : DeclaredMethod TypeDesc) :
    List (DeclaredMethod TypeDesc) :=
  match ms with
  | [] => [m]
  | x :: xs => if x.key = m.key then m :: xs else x :: place xs m

/-- Adds a method, or replaces the one with its key. -/
def push (b : Builder) (m : DeclaredMethod TypeDesc) : Builder :=
  { b with methods := place b.methods m }

/-- Declares a method without an implementation. -/
def declare (b : Builder) (name : String) (params : List TypeDesc) (result : TypeDesc) :
    Builder :=
  b.push ⟨name, params, result, none⟩

/-- Adds a method that works on the state of an instance. -/
def method (b : Builder) (name : String) (params : List TypeDesc) (result : TypeDesc)
    (body : Routine) : Builder :=
  b.push ⟨name, params, result, some (.onInstance b.name body)⟩

/-- Adds a method that gets the receiver as it is. -/
def methodRaw (b : Builder) (name : String) (params : List TypeDesc) (result : TypeDesc)
    (body : Routine) : Builder :=
  b.push ⟨name, params, result, some (.raw body)⟩

/-- The finished type. -/
def build (b : Builder) : TypeDesc :=
  .named b.name b.kind b.superclass b.interfaces b.methods

theorem keys_place (ms : List (DeclaredMethod TypeDesc)) (m : DeclaredMethod TypeDesc) :
    (place ms m).map (·.key) =
      if m.key ∈ ms.map (·.key) then ms.map (·.key) else ms.map (·.key) ++ [m.key] := by
  induction ms with
  | nil => simp [place]
  | cons x xs ih =>
    simp only [place, List.map_cons, List.mem_cons]
    by_cases h : x.key = m.key
    · simp [h]
    · simp only [h, if_false, List.map_cons, ih]
      have h' : ¬ m.key = x.key := fun e => h e.symm
      by_cases hm : m.key ∈ xs.map (·.key) <;> simp [h', hm]

end Builder

end Aspects.TypeDesc
