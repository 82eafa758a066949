import Aspects.Program
import Aspects.TypeDesc.Lookup

/-!
# Reaching the target

The last step of a call: the method runs on the target. A target that is a proxy gets
the call as a proxy does; any other runs the implementation that its type holds for the
key of the method.
-/

namespace Aspects

variable {σ : Type}

/-- Why the implementation refuses the receiver, if it does. -/
def Implementation.refusal? : Implementation → Object → Option Fault
  | raw _, _ => none
  | onInstance owner _, o =>
    if o.isEntity then none
    else some (.illegalArgument
      ("object of type " ++ o.type.name ++ " is not an instance of " ++ owner))

/-- Runs the method on an object that is no proxy. -/
def runMethod (env : Env σ) (o : Object) (m : Method) (args : List Value) : Act σ Value :=
  match o.type.findImplementation m.key with
  | none => Act.fail (.noSuchMethod o.type.name m.key.display)
  | some i =>
    match i.refusal? o with
    | some f => Act.fail f
    | none => env.exec (env.code.method i.body o args)

/-- Runs the method on the target. -/
def reachTarget (env : Env σ) (target : Option Object) (m : Method) (args : List Value) :
    Act σ Value :=
  match target with
  | none => Act.fail (.targetUnavailable m.signature)
  | some o =>
    if o.isProxy then Act.ofOutcome (env.perform (.call (some o) m args))
    else runMethod env o m args

end Aspects
