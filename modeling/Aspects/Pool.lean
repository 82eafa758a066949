import Aspects.Object

/-!
# Pools

A pool lends targets and takes them back. It keeps those that wait, the one returned
last in front, and counts those that are lent. A caller gets a target that waits, or
else a place for a new one while fewer are lent than the pool may hold; the place
counts as lent from then on, so it has to be given up if no target can be made for it.

`offer_eq_nothing_iff` says when a caller gets neither.
-/

namespace Aspects

/-- A pool of targets. -/
structure Pool where
  maxSize : Nat
  idle : List Object := []
  /-- The targets that are lent, and the places of those being made. -/
  active : Nat := 0

namespace Pool

/-- An empty pool, with room for one target at least. -/
def ofSize (n : Nat) : Pool where
  maxSize := max n 1

/-- What a pool has for a caller, and the pool that is left. -/
inductive Offer where
  /-- A target that waited. -/
  | target (o : Object) (left : Pool)
  /-- A place for a new target. -/
  | place (left : Pool)
  | nothing

/-- What a caller gets. -/
def offer (p : Pool) : Offer :=
  match p.idle with
  | o :: rest => .target o { p with idle := rest, active := p.active + 1 }
  | [] =>
    if p.active < p.maxSize then .place { p with active := p.active + 1 } else .nothing

/-- The pool after a place for a new target was given up. -/
def giveUp (p : Pool) : Pool :=
  { p with active := p.active - 1 }

/-- The pool after a target came back. -/
def giveBack (p : Pool) (o : Object) : Pool :=
  { p with idle := o :: p.idle, active := p.active - 1 }

/-- The pool as it is shown for inspection, as the fields of its source. -/
def inspect (p : Pool) : String :=
  "max_size: " ++ toString p.maxSize ++ ", active: " ++ toString p.active ++
    ", idle: " ++ toString p.idle.length

/-- A caller goes away empty-handed if nothing waits and everything is lent. -/
theorem offer_eq_nothing_iff (p : Pool) :
    p.offer = .nothing ↔ p.idle = [] ∧ p.maxSize ≤ p.active := by
  unfold offer
  cases p.idle with
  | nil => by_cases h : p.active < p.maxSize <;> simp [h, Nat.not_le.mpr, Nat.le_of_not_lt]
  | cons o rest => simp

end Pool

end Aspects
