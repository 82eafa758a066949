import Aspects.Flags.Basic
import Aspects.Invocation
import Aspects.Journal
import Aspects.Pool

/-!
# The world

Everything that changes while calls run: the memories of pointcuts, the adapters, the
target sources, the proxy configurations with their cached chains, the catalogues of
advisors, the proxy that is current, and the journal. User code has a state `σ` of its
own, which the engine never looks into.

Things are kept in tables and named by their place there; a number that was never
given out reads as an empty thing.
-/

namespace Aspects

/-- What is remembered of a residue: the method and target type it was found for. -/
structure Remembered where
  key : MethodKey
  declaring : TypeDesc
  target : Option TypeDesc
  residue : Residue

/-- Equality of optional types. -/
def sameTarget : Option TypeDesc → Option TypeDesc → Bool
  | none, none => true
  | some s, some t => s.same t
  | _, _ => false

/-- Was the residue found for this method and target type? -/
def Remembered.isFor (r : Remembered) (m : Method) (t : Option TypeDesc) : Bool :=
  r.key == m.key && r.declaring.same m.declaring && sameTarget r.target t

/-- Were both found for the same method and target type? -/
def Remembered.sameQuestion (r old : Remembered) : Bool :=
  r.key == old.key && r.declaring.same old.declaring && sameTarget r.target old.target

/-- Of what is remembered for the same method and target type the latest, which comes
first and is the one that is answered with. -/
def Remembered.latest : List Remembered → List Remembered
  | [] => []
  | r :: rs => r :: (latest rs).filter fun old => !r.sameQuestion old

/-- Which advice an adapter of the user's understands. -/
inductive AdviceTest where
  /-- Advice whose kind has the name. -/
  | kindNamed (name : String)
  /-- Custom advice that carries the tag. -/
  | tagged (tag : String)
  deriving DecidableEq

/-- An adapter, which turns advice of one sort into interceptors. -/
inductive Adapter where
  | before
  | afterReturning
  | afterThrowing
  | after
  | around
  /-- An adapter of the user's, with the interceptor it makes; without one it refuses
  the advice that it claims to understand. -/
  | user (test : AdviceTest) (interceptor : Option Routine)

/-- The number of a list of adapters. -/
structure AdaptersId where
  index : Nat
  deriving DecidableEq, Inhabited

/-- The adapters that every list starts with. -/
def Adapter.builtIn : List Adapter :=
  [.before, .afterReturning, .afterThrowing, .after, .around]

/-- Where the targets of calls come from. -/
inductive Source where
  /-- No target at all, perhaps a type. -/
  | empty (type : Option TypeDesc)
  /-- Always the same target. -/
  | singleton (target : Object)
  /-- A new target for each call. -/
  | prototype (type : TypeDesc) (factory : Routine)
  /-- Targets that are lent and given back. With `givesUp` a caller that finds nothing
  fails. -/
  | pooled (type : TypeDesc) (factory : Routine) (givesUp : Bool) (pool : Pool)
  /-- One target at a time, which can be exchanged. -/
  | swappable (target : Object)
  /-- A source of the user's. -/
  | user (label : String) (type : Option TypeDesc) (isStatic : Bool) (body : Routine)

instance : Inhabited Source := ⟨.empty none⟩

/-- How a configuration works chains out. -/
inductive ChainMaker where
  /-- From advisors in their order, with the given adapters. -/
  | standard (adapters : AdaptersId)
  | user (body : Routine)

/-- Who makes the proxies of a factory. -/
inductive ProxyMaker where
  | standard
  | user (body : Routine)

/-- What a chain is worked out for: a method, the target type where that is known, and
whether the advisors are said to be filtered. -/
structure ChainQuery where
  method : Method
  target : Option TypeDesc
  preFiltered : Bool

/-- A chain in the cache of a configuration, with the generation it was worked out in. It
is found by the key of the method alone; what else it was worked out for is written down
and never asked for. -/
structure CachedChain where
  query : ChainQuery
  generation : Nat
  chain : Chain

/-- The key that the chain is found by. -/
def CachedChain.key (e : CachedChain) : MethodKey := e.query.method.key

/-- The part of a configuration that freezing protects. -/
structure Layout where
  interfaces : List TypeDesc := []
  advisors : List Advisor := []

/-- The configuration of proxies. -/
structure Configuration where
  flags : Flags := {}
  layout : Layout := {}
  preFiltered : Bool := false
  source : SourceId := default
  cache : List CachedChain := []
  generation : Nat := 0
  chainMaker : ChainMaker := .standard default
  adapters : AdaptersId := default
  active : Bool := false
  listeners : List Routine := []

instance : Inhabited Configuration := ⟨{}⟩

/-- The number of a catalogue of advisors. -/
structure CatalogueId where
  index : Nat
  deriving DecidableEq, Inhabited

/-- The state of a run. -/
structure World (σ : Type) where
  /-- The state of user code. -/
  user : σ
  /-- What happened so far, the latest first. -/
  journal : List Entry := []
  /-- The next number for something that is told apart by a number. -/
  serial : Nat := 0
  /-- How many proxies were made. -/
  proxyCount : Nat := 0
  /-- The proxy that is current. -/
  current : Option Object := none
  memories : Array (List Remembered) := #[]
  adapters : Array (List Adapter) := #[Adapter.builtIn]
  sources : Array Source := #[]
  configs : Array Configuration := #[]
  catalogues : Array (List Advisor) := #[]

namespace World

variable {σ : Type}

def memory (w : World σ) (i : MemoId) : List Remembered := w.memories[i.index]?.getD []

def adapterList (w : World σ) (i : AdaptersId) : List Adapter := w.adapters[i.index]?.getD []

def source (w : World σ) (i : SourceId) : Source := w.sources[i.index]?.getD default

def config (w : World σ) (i : ConfigId) : Configuration := w.configs[i.index]?.getD default

def catalogue (w : World σ) (i : CatalogueId) : List Advisor := w.catalogues[i.index]?.getD []

def setMemory (w : World σ) (i : MemoId) (m : List Remembered) : World σ :=
  { w with memories := w.memories.setIfInBounds i.index m }

theorem memory_setMemory (w : World σ) (id j : MemoId) (ms : List Remembered) :
    (w.setMemory id ms).memory j
      = if j = id ∧ id.index < w.memories.size then ms else w.memory j := by
  unfold setMemory memory
  by_cases hj : j = id
  · subst hj
    by_cases hlt : j.index < w.memories.size
    · simp [hlt]
    · simp [hlt]
  · have hne : id.index ≠ j.index := fun he => hj (by cases id; cases j; cases he; rfl)
    simp [hj, hne]

def setSource (w : World σ) (i : SourceId) (s : Source) : World σ :=
  { w with sources := w.sources.setIfInBounds i.index s }

def setConfig (w : World σ) (i : ConfigId) (c : Configuration) : World σ :=
  { w with configs := w.configs.setIfInBounds i.index c }

def setCatalogue (w : World σ) (i : CatalogueId) (as : List Advisor) : World σ :=
  { w with catalogues := w.catalogues.setIfInBounds i.index as }

/-- The proxy that is current, if one is. -/
def currentProxy (w : World σ) : Except Fault Object :=
  match w.current with
  | some proxy => .ok proxy
  | none => .error .proxyNotAvailable

/-- The world with one more thing written down. -/
def record (w : World σ) (e : Entry) : World σ :=
  { w with journal := e :: w.journal }

end World

end Aspects
