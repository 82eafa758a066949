import Aspects.Advisor

/-!
# Precedence

The order in which advisors act. Four things decide, each only where those before it
leave a tie: the explicit order, a missing one counting as the largest; the place where
the aspect, or an advisor without one, first appears in the list; within an aspect,
advice that runs before a call comes first; then the order of declaration. What is
still tied keeps the order of the list.
-/

namespace Aspects.Precedence

/-- The explicit order that a missing one counts as. -/
def lastOrder : Int := 2147483647

/-- What an advisor is placed by. -/
structure Key where
  order : Int
  group : Nat
  notBefore : Bool
  declaration : Nat
  deriving DecidableEq

/-- Keys compare by their parts, from the first on. -/
def Key.le (a b : Key) : Bool :=
  if a.order != b.order then a.order < b.order
  else if a.group != b.group then a.group < b.group
  else if a.notBefore != b.notBefore then b.notBefore
  else a.declaration ≤ b.declaration

/-- The first place in the list of an advisor of the aspect. -/
def firstPlace (advisors : List Advisor) (aspect : String) : Nat :=
  advisors.findIdx fun a => a.aspect == some aspect

/-- The key of the advisor at a place of the list. -/
def keyAt (advisors : List Advisor) (place : Nat) (a : Advisor) : Key where
  order := a.order.getD lastOrder
  group := match a.aspect with
    | some name => firstPlace advisors name
    | none => place
  notBefore := !a.isBefore
  declaration := a.declarationOrder

/-- The advisors with their keys. -/
def keyed (advisors : List Advisor) : List (Key × Advisor) :=
  advisors.zipIdx.map fun (a, i) => (keyAt advisors i a, a)

/-- The advisors in the order in which they act. -/
def sort (advisors : List Advisor) : List Advisor :=
  ((keyed advisors).mergeSort fun a b => a.1.le b.1).map (·.2)

end Aspects.Precedence
