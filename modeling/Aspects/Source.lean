import Aspects.Program

/-!
# Target sources

A source gives a target to each call and may want it back. An empty source has none
and a singleton source always the same; the others are dynamic, and every target that
was got from one is given back once.

A pooled source takes what its pool offers. When that is a place, the place is taken
before the target is made and given up if making fails. When it is nothing, a caller
waits; nobody else can return a target meanwhile, so a source with a limited wait makes
the caller fail, and without one the run has no outcome.

A swappable source takes a new target only if its type may stand for that of the
current one, or the current type has interfaces and the new target implements them all.
-/

namespace Aspects

namespace Source

/-- The type of the targets, as far as it is known. -/
def type? : Source → Option TypeDesc
  | empty t => t
  | singleton o => some o.type
  | prototype t _ => some t
  | pooled t .. => some t
  | swappable o => some o.type
  | user _ t .. => t

/-- The source always gives the same target and wants none back. -/
def isStatic : Source → Bool
  | empty _ => true
  | singleton _ => true
  | user _ _ s _ => s
  | _ => false

def isEmpty : Source → Bool
  | empty _ => true
  | _ => false

/-- The source as it is shown for inspection. -/
def inspect : Source → String
  | empty t =>
    let shown := match t with
      | none => "None"
      | some t => "Some(" ++ t.inspect ++ ")"
    "EmptyTargetSource \x7b target_type: " ++ shown ++ " \x7d"
  | singleton o => "SingletonTargetSource \x7b target: " ++ o.inspect ++ " \x7d"
  | prototype t _ =>
    "PrototypeTargetSource \x7b target_type: " ++ Text.quote t.name ++ " \x7d"
  | pooled t _ _ pool =>
    "PooledTargetSource \x7b target_type: " ++ Text.quote t.name ++ ", " ++ pool.inspect ++
      " \x7d"
  | swappable o =>
    "HotSwappableTargetSource \x7b target: RwLock \x7b data: " ++ o.inspect ++ " \x7d \x7d"
  | user label .. => label

/-- May the new target take the place of the current one? -/
def compatible (current new : Object) : Bool :=
  let interfaces := current.type.allInterfaces
  current.type.accepts new.type ||
    (!interfaces.isEmpty && interfaces.all new.isInstanceOf)

variable {σ : Type}

/-- A new source. -/
def make (s : Source) : Run σ SourceId :=
  modifyGet fun w => (⟨w.sources.size⟩, { w with sources := w.sources.push s })

/-- The source with its pool changed. -/
def mapPool (f : Pool → Pool) : Source → Source
  | pooled t factory givesUp pool => pooled t factory givesUp (f pool)
  | s => s

/-- Changes the pool of a source. -/
def updatePool (id : SourceId) (f : Pool → Pool) (w : World σ) : World σ :=
  w.setSource id ((w.source id).mapPool f)

/-- Makes a target for a place of a pool that was taken, or gives the place up. -/
def createPooled (env : Env σ) (id : SourceId) (factory : Routine) : Act σ Value := do
  match ← Act.attempt (env.exec (env.code.create factory)) with
  | .ok o => return some o
  | .error e =>
    Act.update (updatePool id Pool.giveUp)
    throw e

/-- Gets a target, if the source has one to give. -/
def acquire (env : Env σ) (id : SourceId) : Act σ Value := do
  match (← Act.world).source id with
  | empty _ => return none
  | singleton o => return some o
  | swappable o => return some o
  | prototype _ factory => return some (← env.exec (env.code.create factory))
  | user _ _ _ body => env.exec (env.code.acquire body)
  | pooled t factory givesUp pool =>
    match pool.offer with
    | .target o left =>
      Act.update (updatePool id fun _ => left)
      return some o
    | .place left =>
      Act.update (updatePool id fun _ => left)
      createPooled env id factory
    | .nothing =>
      if givesUp then
        Act.fail (.targetSource ("timed out waiting for a pooled " ++ t.name ++
          " (max size " ++ toString pool.maxSize ++ ")"))
      else Act.ofRun fun _ => none

/-- Gives a target back. -/
def release (env : Env σ) (id : SourceId) (o : Object) : Act σ Unit := do
  match (← Act.world).source id with
  | prototype .. =>
    Act.ofRun (emit .trace "Discarding prototype target" [("target", o.inspect)])
  | pooled .. => Act.update (updatePool id (·.giveBack o))
  | user _ _ _ body => env.exec (env.code.release body o)
  | _ => return ()

/-- Exchanges the target of a swappable source and answers the old one. -/
def swap (id : SourceId) (new : Object) : Act σ Object := do
  match (← Act.world).source id with
  | swappable old =>
    if compatible old new then
      Act.update fun w => (w.record (.swapped id old new)).setSource id (swappable new)
      Act.ofRun (emit .debug "Swapped target" [("old", old.inspect), ("new", new.inspect)])
      return old
    else
      Act.fail (.illegalArgument ("cannot swap target of type " ++ old.type.name ++
        " with incompatible " ++ new.type.name))
  | _ => Act.fail (.illegalArgument "the target source cannot be swapped")

end Source

end Aspects
