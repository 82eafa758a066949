import Aspects.TypeDesc.Basic

/-!
# The supertypes of a type

Three readings of the edges to superclass and interfaces: `accepts` asks whether
values of one type may stand for values of another, `hierarchy` lists a type with all
its supertypes breadth first, and `allInterfaces` lists the interfaces implemented
directly along the chain of superclasses.

A descriptor is finite, so its `weight`, the number of descriptors in it, bounds every
walk upwards: `weight_parents_lt` says that the parents together weigh less than the
type, which is why the breadth-first walk ends.
-/

namespace Aspects

namespace TypeDesc

mutual

/-- The number of descriptors that a descriptor is made of along its edges upwards. -/
def weight : TypeDesc → Nat
  | root => 1
  | named _ _ superclass interfaces _ =>
    1 + weightOption superclass + weightList interfaces

/-- The weight of an optional descriptor. -/
def weightOption : Option TypeDesc → Nat
  | none => 0
  | some t => weight t

/-- The weights of a list of descriptors together. -/
def weightList : List TypeDesc → Nat
  | [] => 0
  | t :: ts => weight t + weightList ts

end

theorem weightList_append (xs ys : List TypeDesc) :
    weightList (xs ++ ys) = weightList xs + weightList ys := by
  induction xs with
  | nil => simp [weightList]
  | cons x xs ih => simp [weightList, ih, Nat.add_assoc]

/-- The parents together weigh less than the type. -/
theorem weight_parents_lt (t : TypeDesc) : weightList t.parents < t.weight := by
  cases t with
  | root => simp [parents, superclass, interfaces, weightList, weight]
  | named n k s is ms =>
    cases s <;> simp [parents, superclass, interfaces, weight, weightOption, weightList]

/-- Is the type among those listed? -/
def listed (ts : List TypeDesc) (t : TypeDesc) : Bool :=
  ts.any (·.same t)

/-- The types that are listed neither in `known` nor earlier in the list itself. -/
def unknown (known : List TypeDesc) : List TypeDesc → List TypeDesc
  | [] => []
  | t :: ts => if listed known t then unknown known ts else t :: unknown (known ++ [t]) ts

theorem weightList_unknown_le (known ts : List TypeDesc) :
    weightList (unknown known ts) ≤ weightList ts := by
  induction ts generalizing known with
  | nil => simp [unknown]
  | cons t ts ih =>
    unfold unknown
    split
    · have := ih known
      simp only [weightList]
      omega
    · have := ih (known ++ [t])
      simp only [weightList]
      omega

/-- The breadth-first walk: `done` holds the types whose parents are known, `pending`
those still to be expanded, oldest first. -/
def walk (done : List TypeDesc) : List TypeDesc → List TypeDesc
  | [] => done
  | t :: pending =>
    walk (done ++ [t]) (pending ++ unknown (done ++ t :: pending) t.parents)
termination_by pending => weightList pending
decreasing_by
  have h := weightList_unknown_le (done ++ t :: pending) t.parents
  have h' := weight_parents_lt t
  rw [weightList_append]
  simp only [weightList]
  omega

/-- The type and all its supertypes, nearest first, each of them once. -/
def hierarchy (t : TypeDesc) : List TypeDesc :=
  walk [] [t]

mutual

/-- May a value of the second type stand where the first is asked for? Primitive types
and void accept themselves only, the root accepts all classes and interfaces, and any
other type accepts those that reach it upwards. -/
def accepts (wanted : TypeDesc) : TypeDesc → Bool
  | root => wanted.same root
  | named n k superclass interfaces ms =>
    wanted.same (named n k superclass interfaces ms) ||
      match wanted.kind with
      | .primitiveKind => false
      | .voidKind => false
      | _ =>
        if wanted.isRoot then k == .classKind || k == .interfaceKind
        else acceptsOption wanted superclass || acceptsAny wanted interfaces

/-- Does the type accept the optional one? -/
def acceptsOption (wanted : TypeDesc) : Option TypeDesc → Bool
  | none => false
  | some t => accepts wanted t

/-- Does the type accept one of those listed? -/
def acceptsAny (wanted : TypeDesc) : List TypeDesc → Bool
  | [] => false
  | t :: ts => accepts wanted t || acceptsAny wanted ts

end

@[simp]
theorem acceptsAny_eq_any (wanted : TypeDesc) (ts : List TypeDesc) :
    acceptsAny wanted ts = ts.any wanted.accepts := by
  induction ts with
  | nil => rfl
  | cons t ts ih => simp [acceptsAny, ih]

@[simp]
theorem acceptsOption_eq_any (wanted : TypeDesc) (t : Option TypeDesc) :
    acceptsOption wanted t = t.any wanted.accepts := by
  cases t <;> rfl

theorem accepts_self (t : TypeDesc) : t.accepts t = true := by
  cases t with
  | root => rfl
  | named n k s is ms => simp [accepts, same_refl]

/-- The type followed by its superclass, the superclass of that, and so on. -/
def superclassChain : TypeDesc → List TypeDesc
  | root => [root]
  | named n k superclass is ms =>
    named n k superclass is ms :: match superclass with
      | none => []
      | some s => superclassChain s

/-- The list with those types added at its end that it does not have yet. -/
def addNew (known ts : List TypeDesc) : List TypeDesc :=
  ts.foldl (fun acc t => if listed acc t then acc else acc ++ [t]) known

/-- For an interface the interface itself; for any other type the interfaces that it
and its superclasses implement directly. -/
def allInterfaces (t : TypeDesc) : List TypeDesc :=
  if t.isInterface then [t]
  else t.superclassChain.foldl (fun acc s => addNew acc s.interfaces) []

end TypeDesc

end Aspects
