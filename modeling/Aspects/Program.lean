import Aspects.World

/-!
# User code

User code is a program over the commands of the library: a tree whose nodes issue a
command and go on with its answer. Callbacks issue any `Command`; an interceptor may
besides continue its invocation, on itself or on a copy, and change it; advice around a
call may continue it. What a routine does is said by `Code`, which maps its number to a
program for each role in which user code is run.

A program runs against something that carries out its commands (`Program.run`). The
commands that the engine offers are carried out on a `World`; a run has no outcome if
calls nest deeper than it was given room for.
-/

namespace Aspects

/-- A program that issues commands of the family `F` and ends with an `α`. -/
inductive Program (F : Type → Type) (α : Type) : Type 1 where
  | done (a : α)
  | issue {β : Type} (command : F β) (next : β → Program F α)

namespace Program

variable {F G : Type → Type} {α β : Type}

/-- The first program, then the one chosen by what it ends with. -/
def andThen : Program F α → (α → Program F β) → Program F β
  | done a, f => f a
  | issue c k, f => issue c fun b => (k b).andThen f

instance : Monad (Program F) where
  pure := done
  bind := andThen

/-- The program that issues one command. -/
def ofCommand (c : F α) : Program F α :=
  issue c done

/-- Carries a program out, given how to carry out its commands. -/
def run {μ : Type → Type} [Monad μ] (perform : {β : Type} → F β → μ β) :
    Program F α → μ α
  | done a => pure a
  | issue c k => do (k (← perform c)).run perform

/-- The same program over a family that contains its commands. -/
def lift (embed : {β : Type} → F β → G β) : Program F α → Program G α
  | done a => done a
  | issue c k => issue (embed c) fun b => (k b).lift embed

theorem run_andThen {μ : Type → Type} [Monad μ] [LawfulMonad μ]
    (perform : {β : Type} → F β → μ β) (p : Program F α) (f : α → Program F β) :
    (p.andThen f).run perform = p.run perform >>= fun a => (f a).run perform := by
  induction p with
  | done a => simp [andThen, run]
  | issue c k ih => simp [andThen, run, ih]

end Program

/-- An outcome that may be a failure. -/
abbrev Outcome (α : Type) := Except Failure α

/-- The commands of the library. -/
inductive Command (σ : Type) : Type → Type where
  /-- Looks at the world. -/
  | world : Command σ (World σ)
  /-- Sets the state of user code. -/
  | setUser (s : σ) : Command σ Unit
  /-- Writes a line. -/
  | note (line : String) : Command σ Unit
  /-- A number that was not given out before. -/
  | fresh : Command σ Nat
  /-- Calls a method on a target; on a proxy this goes through its interceptors. -/
  | call (target : Option Object) (m : Method) (args : List Value) : Command σ (Outcome Value)
  /-- A pointcut for an expression that remembers its residues. -/
  | newMemo (e : Expr) (source : Option String) : Command σ Pointcut
  | matchesClass (p : Pointcut) (t : TypeDesc) : Command σ Bool
  | matchesMethod (p : Pointcut) (m : Method) (t : Option TypeDesc) :
      Command σ (Outcome Verdict)
  | matchesRuntime (p : Pointcut) (m : Method) (t : Option TypeDesc) (args : List Value) :
      Command σ Bool
  /-- What is left of a pointcut for a method and a target type. -/
  | residue (p : Pointcut) (m : Method) (t : Option TypeDesc) : Command σ (Option Pointcut)
  | resolve (e : Expr) (m : Method) (t : TypeDesc) : Command σ (Outcome Residue)
  | evaluate (e : Expr) (m : Method) (t : TypeDesc) (args : List Value) : Command σ Bool
  | passes (r : Residue) (m : Method) (args : List Value) : Command σ Bool
  /-- A list of the built-in adapters followed by others. -/
  | newAdapters (extra : List Adapter) : Command σ AdaptersId
  /-- The interceptors that a list of adapters makes for an advisor. -/
  | interceptors (a : AdaptersId) (advisor : Advisor) : Command σ (Outcome (List Interceptor))
  | newSource (s : Source) : Command σ SourceId
  | acquire (s : SourceId) : Command σ (Outcome Value)
  | release (s : SourceId) (o : Object) : Command σ (Outcome Unit)
  /-- Exchanges the target of a swappable source and answers the old one. -/
  | swap (s : SourceId) (o : Object) : Command σ (Outcome Object)
  | newConfig (c : Configuration) : Command σ ConfigId
  /-- Inserts an advisor at a place, or behind all others. -/
  | addAdvisor (c : ConfigId) (place : Option Nat) (a : Advisor) : Command σ (Outcome Unit)
  | removeAdvisor (c : ConfigId) (a : Advisor) : Command σ (Outcome Bool)
  | removeAdvisorAt (c : ConfigId) (place : Nat) : Command σ (Outcome Advisor)
  | replaceAdvisor (c : ConfigId) (old new : Advisor) : Command σ (Outcome Bool)
  | addAdvice (c : ConfigId) (place : Option Nat) (a : Advice) : Command σ (Outcome Unit)
  | removeAdvice (c : ConfigId) (a : Advice) : Command σ (Outcome Bool)
  | addInterface (c : ConfigId) (t : TypeDesc) : Command σ (Outcome Unit)
  | removeInterface (c : ConfigId) (t : TypeDesc) : Command σ (Outcome Bool)
  | setSource (c : ConfigId) (s : SourceId) : Command σ Unit
  | freeze (c : ConfigId) : Command σ Unit
  | setFrozen (c : ConfigId) (b : Bool) : Command σ (Outcome Unit)
  | setFlags (c : ConfigId) (f : Flags) : Command σ (Outcome Unit)
  /-- Sets the flags while a factory is being put together. -/
  | replaceFlags (c : ConfigId) (f : Flags) : Command σ Unit
  | setExposeProxy (c : ConfigId) (b : Bool) : Command σ Unit
  | setPreFiltered (c : ConfigId) (b : Bool) : Command σ Unit
  | addListener (c : ConfigId) (l : Routine) : Command σ Unit
  | removeListener (c : ConfigId) (l : Routine) : Command σ Bool
  /-- The chain of a method, from the cache if it is there. -/
  | chain (c : ConfigId) (m : Method) (t : Option TypeDesc) : Command σ (Outcome Chain)
  /-- The chain that advisors make for a method. -/
  | standardChain (a : AdaptersId) (advisors : List Advisor) (preFiltered : Bool) (m : Method)
      (t : Option TypeDesc) : Command σ (Outcome (List Link))
  /-- Makes a proxy, waking the configuration up. -/
  | getProxy (c : ConfigId) (maker : ProxyMaker) : Command σ (Outcome Object)
  /-- Makes a proxy the standard way. -/
  | standardProxy (c : ConfigId) : Command σ (Outcome Object)
  /-- Continues an invocation. -/
  | proceed (v : Invocation) : Command σ (Outcome Value × Invocation)
  | canApply (a : Advisor) (t : TypeDesc) : Command σ Bool
  /-- Those of the advisors that can apply to a type, introductions first. -/
  | applicable (as : List Advisor) (t : TypeDesc) : Command σ (List Advisor)
  | newCatalogue : Command σ CatalogueId
  | register (c : CatalogueId) (a : Advisor) : Command σ Unit
  /-- Announces an aspect and registers its advisors. -/
  | registerAspect (c : CatalogueId) (name : String) (as : List Advisor) : Command σ Unit
  | clearCatalogue (c : CatalogueId) : Command σ Unit
  /-- Registers the advisors that the program brings along. -/
  | autoLoad (c : CatalogueId) : Command σ Unit
  /-- The advisors for an object, in the order in which they act. -/
  | advisorsFor (c : CatalogueId) (o : Object) : Command σ (List Advisor)
  /-- A proxy around the object if some advisor asks for one. -/
  | wrap (enabled : Bool) (c : CatalogueId) (f : Flags) (name : String) (o : Object) :
      Command σ (Outcome Object)

/-- What advice around a call may do with its invocation. -/
inductive AroundStep : Type → Type where
  | invocation : AroundStep Invocation
  | proceed : AroundStep (Outcome Value)
  /-- Continues with other arguments, as many as the method has parameters. -/
  | proceedWith (args : List Value) : AroundStep (Outcome Value)

/-- What an interceptor may do with its invocation. -/
inductive InvocationStep : Type → Type where
  | invocation : InvocationStep Invocation
  | proceed : InvocationStep (Outcome Value)
  /-- Continues on a copy, with other arguments if some are given. -/
  | proceedOnCopy (args : Option (List Value)) : InvocationStep (Outcome Value)
  | setArguments (args : List Value) : InvocationStep Unit
  | setAttribute (key : String) (o : Object) : InvocationStep Unit
  | removeAttribute (key : String) : InvocationStep Unit

/-- The commands of two families. -/
abbrev Either (F G : Type → Type) (β : Type) := F β ⊕ G β

/-- A program of a callback, which cannot fail. -/
abbrev Action (σ : Type) := Program (Command σ)

/-- A program of a callback, which may fail. -/
abbrev Task (σ : Type) := ExceptT Failure (Action σ)

/-- Advisors that a program brings along, under a name. -/
structure Registration (σ : Type) where
  name : String
  advisors : Action σ (List Advisor)

/-- What the routines do, for each role in which user code is run, and how much time passes
meanwhile. -/
structure Code (σ : Type) where
  method : Routine → Object → List Value → Task σ Value
  before : Routine → JoinPoint → Task σ Unit
  after : Routine → JoinPoint → Task σ Unit
  afterReturning : Routine → JoinPoint → Value → Task σ Unit
  afterThrowing : Routine → JoinPoint → Failure → Task σ Unit
  around : Routine → ExceptT Failure (Program (Either (Command σ) AroundStep)) Value
  interceptor : Routine → ExceptT Failure (Program (Either (Command σ) InvocationStep)) Value
  argumentTest : Routine → List Value → Action σ Bool
  methodTest : Routine → Method → TypeDesc → Action σ (Except String Bool)
  matchesClass : Routine → TypeDesc → Action σ Bool
  matchesMethod : Routine → Method → Option TypeDesc → Task σ Verdict
  matchesRuntime : Routine → Method → Option TypeDesc → List Value → Action σ Bool
  residue : Routine → Method → Option TypeDesc → Action σ (Option Pointcut)
  create : Routine → Task σ Object
  acquire : Routine → Task σ Value
  release : Routine → Object → Task σ Unit
  activated : Routine → ConfigId → Action σ Unit
  changed : Routine → ConfigId → Action σ Unit
  makeProxy : Routine → ConfigId → Task σ Object
  makeChain : Routine → List Advisor → Bool → Method → Option TypeDesc → Task σ (List Link)
  registrations : List (Registration σ)
  /-- How long a call took, in nanoseconds, that ends in the world. -/
  took : World σ → Nat := fun _ => 1

/-- Routines that do as little as they can: methods and sources answer nothing,
callbacks do nothing, tests and pointcuts accept everything, and what stands around a
call goes on. -/
def Code.idle {σ : Type} : Code σ where
  method _ _ _ := pure none
  before _ _ := pure ()
  after _ _ := pure ()
  afterReturning _ _ _ := pure ()
  afterThrowing _ _ _ := pure ()
  around _ := ExceptT.mk (.ofCommand (.inr .proceed))
  interceptor _ := ExceptT.mk (.ofCommand (.inr .proceed))
  argumentTest _ _ := pure true
  methodTest _ _ _ := pure (.ok true)
  matchesClass _ _ := pure true
  matchesMethod _ _ _ := pure .always
  matchesRuntime _ _ _ _ := pure true
  residue _ _ _ := pure none
  create _ := throw (.fault .noTargetOrAdvisors)
  acquire _ := pure none
  release _ _ := pure ()
  activated _ _ := pure ()
  changed _ _ := pure ()
  makeProxy _ _ := throw (.fault .noTargetOrAdvisors)
  makeChain _ _ _ _ _ := pure []
  registrations := []

/-- A run on a world, which may lack an outcome. -/
abbrev Run (σ : Type) := StateT (World σ) Option

/-- A run that may fail. -/
abbrev Act (σ : Type) := ExceptT Failure (Run σ)

/-- What the engine needs to run user code: what the routines do, and how the commands
that they issue are carried out. -/
structure Env (σ : Type) where
  code : Code σ
  perform : {β : Type} → Command σ β → Run σ β

namespace Env

variable {σ : Type} {α : Type}

/-- Runs a callback that cannot fail. -/
def run (env : Env σ) (p : Action σ α) : Run σ α :=
  Program.run env.perform p

/-- Runs a callback that may fail. -/
def exec (env : Env σ) (p : Task σ α) : Act σ α :=
  ExceptT.mk (env.run p.run)

end Env

/-- Writes something down. -/
def record {σ : Type} (e : Entry) : Run σ Unit :=
  modify (·.record e)

/-- Writes a message of the engine down. -/
def emit {σ : Type} (level : Level) (message : String) (fields : List (String × String)) :
    Run σ Unit :=
  record (.event ⟨level, message, fields⟩)

/-- A number that was not given out before. -/
def freshId {σ : Type} : Run σ Nat :=
  modifyGet fun w => (w.serial, { w with serial := w.serial + 1 })

namespace Act

variable {σ α β : Type}

/-- A run that cannot fail, as one that may. -/
def ofRun (r : Run σ α) : Act σ α :=
  ExceptT.lift r

/-- Fails with a fault of the engine. -/
def fail (f : Fault) : Act σ α :=
  throw (.fault f)

/-- Goes on with a fault of the engine as a failure. -/
def ofExcept : Except Fault α → Act σ α
  | .ok a => pure a
  | .error f => fail f

/-- Carries the act out and answers its outcome instead of failing. -/
def attempt (a : Act σ α) : Act σ (Outcome α) :=
  ofRun a.run

/-- Carries out something that answers an outcome. -/
def ofOutcome (r : Run σ (Outcome α)) : Act σ α :=
  ExceptT.mk r

/-- Looks at the world. -/
def world : Act σ (World σ) :=
  ofRun get

/-- Changes the world. -/
def update (f : World σ → World σ) : Act σ Unit :=
  ofRun (modify f)

/-! What a run comes to, from a world on. -/

theorem run_bind (a : Act σ α) (k : α → Act σ β) (w : World σ) :
    (a >>= k).run w = (a.run w).bind fun x =>
      match x.1 with
      | .ok y => (k y).run x.2
      | .error e => some (.error e, x.2) := by
  rw [ExceptT.run_bind]
  refine Option.bind_congr fun ⟨o, w'⟩ _ => ?_
  cases o with
  | ok y => rfl
  | error e => rfl

theorem run_ofRun (r : Run σ α) (k : α → Act σ β) (w : World σ) :
    (ofRun r >>= k).run w = (r w).bind fun x => (k x.1).run x.2 := by
  show ((r w).bind _).bind _ = _
  cases r w with
  | none => rfl
  | some x => rfl

theorem run_world (k : World σ → Act σ α) (w : World σ) :
    (world >>= k).run w = (k w).run w := rfl

end Act

section TwoParts

variable {σ ε α β : Type} {x : ExceptT ε (Run σ) α} {w w' : World σ}

/-- Where the first part has an answer the second one takes over. -/
theorem run_bind_of_some {r : Run σ α} {a : α} (h : r w = some (a, w')) (k : α → Run σ β) :
    (r >>= k) w = k a w' :=
  congrArg (Option.bind · _) h

/-- Where the first part ends well the second one takes over. -/
theorem run_bind_of_ok {a : α} (h : x.run w = some (.ok a, w'))
    (k : α → ExceptT ε (Run σ) β) : (x >>= k).run w = (k a).run w' := by
  rw [ExceptT.run_bind]
  exact run_bind_of_some h _

/-- A run in two parts that ends well has ended well in both of them. -/
theorem of_run_bind_ok {k : α → ExceptT ε (Run σ) β} {b : β}
    (h : (x >>= k).run w = some (.ok b, w')) :
    ∃ a w₁, x.run w = some (.ok a, w₁) ∧ (k a).run w₁ = some (.ok b, w') := by
  rw [ExceptT.run_bind] at h
  obtain ⟨⟨_ | a, w₁⟩, hr, hk⟩ := Option.bind_eq_some_iff.mp h
  · cases hk
  · exact ⟨a, w₁, hr, hk⟩

end TwoParts

end Aspects
