import Aspects.Adapters
import Aspects.Source

/-!
# Edits of a configuration

What a structural operation does to the interfaces and advisors, apart from freezing,
caches and listeners: an `Edit` answers the result together with the new layout, or
with nothing if there was nothing to change, or refuses.

An advisor that introduces interfaces brings them with it when it comes and takes them
away when it goes, whoever else asked for them.
-/

namespace Aspects

/-- What an operation does to a layout: its answer, and the layout if it changed. -/
abbrev Edit (α : Type) := Layout → Except Fault (α × Option Layout)

namespace Layout

/-- Without the interfaces that the advisor introduces. -/
def dropIntroduced (l : Layout) (a : Advisor) : Layout :=
  { l with interfaces := l.interfaces.filter fun i => !TypeDesc.listed a.introduced i }

/-- With the interfaces that the advisor introduces. -/
def addIntroduced (l : Layout) (a : Advisor) : Layout :=
  { l with interfaces := TypeDesc.addNew l.interfaces a.introduced }

/-- The place of the advisor. -/
def placeOf (l : Layout) (a : Advisor) : Option Nat :=
  l.advisors.findIdx? (·.same a)

/-- The place of the first advisor with the advice. -/
def placeOfAdvice (l : Layout) (a : Advice) : Option Nat :=
  l.advisors.findIdx? (·.advice.same a)

/-- Inserts the advisor at a place, or behind all others. -/
def insert (place : Option Nat) (a : Advisor) : Edit Unit := fun l =>
  let place := place.getD l.advisors.length
  if place > l.advisors.length then
    .error (.advisorIndexOutOfBounds place l.advisors.length)
  else
    let l := l.addIntroduced a
    .ok ((), some { l with advisors := l.advisors.insertIdx place a })

/-- Takes out the advisor at the place, which holds it. -/
def takeOut (l : Layout) (place : Nat) (a : Advisor) : Layout :=
  { l with advisors := l.advisors.eraseIdx place }.dropIntroduced a

/-- Removes the advisor that stands at the place, if the place is known and taken. -/
def removeFound (place : Option Nat) : Edit Bool := fun l =>
  match place with
  | none => .ok (false, none)
  | some i =>
    match l.advisors[i]? with
    | none => .ok (false, none)
    | some a => .ok (true, some (l.takeOut i a))

/-- Removes an advisor. -/
def remove (a : Advisor) : Edit Bool := fun l =>
  removeFound (l.placeOf a) l

/-- Removes the first advisor with the advice. -/
def removeAdvice (a : Advice) : Edit Bool := fun l =>
  removeFound (l.placeOfAdvice a) l

/-- Removes the advisor at a place and answers it. -/
def removeAt (place : Nat) : Edit Advisor := fun l =>
  match l.advisors[place]? with
  | none => .error (.advisorIndexOutOfBounds place l.advisors.length)
  | some a => .ok (a, some (l.takeOut place a))

/-- Puts an advisor in the place of another. -/
def replace (old new : Advisor) : Edit Bool := fun l =>
  match l.placeOf old with
  | none => .ok (false, none)
  | some i =>
    match l.advisors[i]? with
    | none => .ok (false, none)
    | some found =>
      let l := (l.dropIntroduced found).addIntroduced new
      .ok (true, some { l with advisors := l.advisors.set i new })

/-- Adds an interface unless an equal one is there. -/
def addInterface (t : TypeDesc) : Edit Unit := fun l =>
  if TypeDesc.listed l.interfaces t then .ok ((), none)
  else .ok ((), some { l with interfaces := l.interfaces ++ [t] })

/-- Removes an interface. -/
def removeInterface (t : TypeDesc) : Edit Bool := fun l =>
  if TypeDesc.listed l.interfaces t then
    .ok (true, some { l with interfaces := l.interfaces.filter fun i => !i.same t })
  else .ok (false, none)

/-- The layout that a factory starts with: the interfaces among the types, each once. -/
def ofInterfaces (ts : List TypeDesc) : Layout :=
  { interfaces := TypeDesc.addNew [] (ts.filter (·.isInterface)) }

end Layout

namespace Configuration

def isFrozen (c : Configuration) : Bool := c.flags.frozen

def advisors (c : Configuration) : List Advisor := c.layout.advisors

def interfaces (c : Configuration) : List TypeDesc := c.layout.interfaces

/-- Does one of the interfaces extend the given one, or equal it? -/
def isInterfaceProxied (c : Configuration) (t : TypeDesc) : Bool :=
  c.interfaces.any t.accepts

/-- The type of the targets, as far as it is known. -/
def targetType? {σ : Type} (w : World σ) (c : Configuration) : Option TypeDesc :=
  (w.source c.source).type?

/-- Why the advisor may not come into a configuration with these adapters. -/
def refusal? (adapters : List Adapter) (a : Advisor) : Option Fault :=
  if !Adapter.anySupports adapters a.advice then
    some (.unknownAdviceType a.advice.kind.name)
  else
    (a.introduced.find? fun t => !t.isInterface).map fun t => .notAnInterface t.name

/-- What is kept for the key in the present generation. -/
def kept? (c : Configuration) (k : MethodKey) : Option CachedChain :=
  (c.cache.find? (·.key == k)).filter (·.generation == c.generation)

/-- The cached chain for the key in the present generation. -/
def cached? (c : Configuration) (k : MethodKey) : Option Chain :=
  (c.kept? k).map CachedChain.chain

/-- What a chain of the configuration is worked out for, for a method and a target type. -/
def query (c : Configuration) (m : Method) (t : Option TypeDesc) : ChainQuery :=
  ⟨m, t, c.preFiltered⟩

/-- The cache with a chain in place of one for the same key. -/
def store (c : Configuration) (e : CachedChain) : Configuration :=
  { c with cache := e :: c.cache.filter fun old => old.key != e.key }

/-- With the layout of the next generation. -/
def advance (c : Configuration) (l : Layout) : Configuration :=
  { c with layout := l, generation := c.generation + 1 }

end Configuration

end Aspects
